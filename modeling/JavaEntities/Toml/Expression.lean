import JavaEntities.Toml.Moment
import JavaEntities.Toml.Number
import JavaEntities.Toml.Quoted
import JavaEntities.Toml.Table

/-!
# Keys, values and lines of TOML

A document is a list of lines: headers of tables and of tables in arrays, and
keys with values. A key may be dotted. Arrays and tables in braces may lie in one
another up to a depth, and line ends and comments may stand between their parts.
-/

namespace JavaEntities.Toml

/-- How deep values may lie in one another. -/
def depthLimit : Nat := 79

/-! ## Keys -/

/-- One part of a key. -/
def keyPart : Reader String := fun s =>
  match singleLine s with
  | some r => some r
  | none =>
    let bare := s.takeWhile isBare
    if bare = [] then none else some (String.ofList bare, s.drop bare.length)

/-- A key of at most `n` parts. -/
def keyParts : Nat → Reader (List String)
  | 0, _ => none
  | n + 1, s =>
    (keyPart s).bind fun (part, s) =>
      match skipSpaces s with
      | '.' :: s => (keyParts n (skipSpaces s)).map fun (parts, s) => (part :: parts, s)
      | s => some ([part], s)

/-- A key, with the spaces after it. -/
def key : Reader (List String) := fun s =>
  keyParts (s.length + 1) s

/-! ## Values -/

/-- Whether a character may stand in a value without quotes. -/
def isScalar (c : Char) : Bool :=
  isBare c || c = '+' || c = '.' || c = ':'

/-- The text of a value without quotes. A blank may stand between date and time. -/
def scalarText : Reader (List Char) := fun s =>
  let first := s.takeWhile isScalar
  let rest := s.drop first.length
  match rest with
  | ' ' :: c :: _ =>
    if hasDateShape first && isDecimal c then
      let second := (rest.drop 1).takeWhile isScalar
      some (first ++ ' ' :: second, (rest.drop 1).drop second.length)
    else some (first, rest)
  | _ => some (first, rest)

/-- The value that a text without quotes stands for. -/
def scalarValue (s : List Char) : Option Value :=
  if s = "true".toList then some (.boolean true)
  else if s = "false".toList then some (.boolean false)
  else if isMoment s then some (.moment (String.ofList s))
  else
    match integer? s with
    | some n => some (.integer n)
    | none => (real? s).map .real

/-- A value without quotes. -/
def scalar : Reader Value := fun s =>
  (scalarText s).bind fun (text, rest) => (scalarValue text).map fun v => (v, rest)

/-- The items of an array up to its closing bracket, at most `n`. -/
def items (value : Reader Value) : Nat → Reader (List Value)
  | 0, _ => none
  | n + 1, s =>
    match skipBetween s with
    | ']' :: s => some ([], s)
    | s =>
      (value s).bind fun (v, s) =>
        match skipBetween s with
        | ',' :: s => (items value n s).map fun (vs, s) => (v :: vs, s)
        | ']' :: s => some ([v], s)
        | _ => none

/-- A key, its value and the spaces between. -/
def assignment (value : Reader Value) : Reader (List String × Value) := fun s =>
  (key s).bind fun (k, s) =>
    match skipSpaces s with
    | '=' :: s => (value (skipSpaces s)).map fun (v, s) => ((k, v), s)
    | _ => none

/-- The assignments of a table in braces up to the closing one, at most `n`. -/
def assignments (value : Reader Value) : Nat → Reader (List (List String × Value))
  | 0, _ => none
  | n + 1, s =>
    match skipBetween s with
    | '\x7d' :: s => some ([], s)
    | s =>
      (assignment value s).bind fun (a, s) =>
        match skipBetween s with
        | ',' :: s => (assignments value n s).map fun (as, s) => (a :: as, s)
        | '\x7d' :: s => some ([a], s)
        | _ => none

/-- A value that holds values to at most a depth. -/
def valueTo : Nat → Reader Value
  | 0, s =>
    match s with
    | '"' :: _ => (quoted s).map fun (t, s) => (.string t, s)
    | '\'' :: _ => (quoted s).map fun (t, s) => (.string t, s)
    | _ => scalar s
  | depth + 1, s =>
    match s with
    | '"' :: _ => (quoted s).map fun (t, s) => (.string t, s)
    | '\'' :: _ => (quoted s).map fun (t, s) => (.string t, s)
    | '[' :: s => (items (valueTo depth) (s.length + 1) s).map fun (vs, s) => (.array vs, s)
    | '\x7b' :: s =>
      (assignments (valueTo depth) (s.length + 1) s).bind fun (as, s) =>
        (Draft.ofAssignments as).map fun t => (t, s)
    | _ => scalar s

/-- A value. -/
def value : Reader Value :=
  valueTo depthLimit

/-! ## Lines -/

/-- What a line says. -/
inductive Line
  | assign (key : List String) (v : Value)
  | header (key : List String)
  | arrayHeader (key : List String)
  deriving Repr, Inhabited

/-- The rest of a document after the end of a line. -/
def finishLine (s : List Char) : Option (List Char) :=
  match skipComment (skipSpaces s) with
  | [] => some []
  | s => lineEnd? s

/-- What stands on a line that is not blank. -/
def line : Reader Line
  | '[' :: '[' :: s =>
    (key (skipSpaces s)).bind fun (k, s) =>
      match skipSpaces s with
      | ']' :: ']' :: s => some (.arrayHeader k, s)
      | _ => none
  | '[' :: s =>
    (key (skipSpaces s)).bind fun (k, s) =>
      match skipSpaces s with
      | ']' :: s => some (.header k, s)
      | _ => none
  | s => (assignment value s).map fun ((k, v), s) => (.assign k v, s)

/-- The lines of a document, at most `n`. -/
def linesTo : Nat → List Char → Option (List Line)
  | 0, _ => none
  | n + 1, s =>
    match skipBetween s with
    | [] => some []
    | s =>
      (line s).bind fun (l, s) =>
        (finishLine s).bind fun s => (linesTo n s).map (l :: ·)

/-- The text without the mark of its byte order. -/
def skipByteOrderMark : List Char → List Char
  | c :: s => if c = '\uFEFF' then s else c :: s
  | [] => []

end JavaEntities.Toml
