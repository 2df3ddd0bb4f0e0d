import JavaEntities.Text.Raw
import JavaEntities.Text.Split

/-!
# Paths

A path is kept as it was spelled, in bytes that need be no text, since messages and
listings show the spelling. What it means is the list of its components: separators
may be repeated or stand at the end, and a `.` that is not the first segment says
nothing. Two paths are the same when their components are, and paths are ordered by
components.

`join` appends a name, `fileName` is the last component, and `respell` gives the
spelling that holds only the components.

Mirrors the paths of the system, and the questions about names in `has_extension`,
`is_hidden` and `schema_identifier`. Like the program's, paths and names are bytes
and identifiers are texts.
-/

namespace JavaEntities

open Text

/-- A step of a path. -/
inductive Component
  /-- The top of the tree, only at the start of an absolute path. -/
  | root
  /-- The directory itself, only at the start of a relative path. -/
  | here
  /-- The directory above. -/
  | up
  /-- An entry of the directory. -/
  | name (n : RawText)
  deriving DecidableEq, Repr, Inhabited

namespace Component

/-- The kinds of component in their order. -/
def rank : Component → Nat
  | root => 0
  | here => 1
  | up => 2
  | name _ => 3

/-- The name of an entry, empty for the other components. -/
def label : Component → RawText
  | name n => n
  | _ => ""

/-- Components are ordered by kind, and names by their bytes. -/
instance : Ord Component where
  compare := compareLex (compareOn rank) (compareOn label)

instance : Std.TransOrd Component :=
  inferInstanceAs (Std.TransCmp (compareLex (compareOn rank) (compareOn label)))

/-- The component that a segment between separators stands for, if it stands
for one. -/
def ofSegment (s : List UInt8) : Option Component :=
  if s = [] ∨ s = [dot] then none
  else if s = [dot, dot] then some up
  else some (name (RawText.ofList s))

/-- The spelling of a component that is not the root. -/
def segment : Component → RawText
  | root => ""
  | here => "."
  | up => ".."
  | name n => n

end Component

/-- A path as it was spelled. -/
structure Path where
  text : RawText
  deriving DecidableEq, Repr, Inhabited

namespace Path

/-- The component that only the first segment can give: an empty segment with a
separator after it is the root, a `.` is the directory itself. -/
def leading : List (List UInt8) → List Component
  | [] => []
  | first :: rest =>
    if first = [dot] then [.here] else if first = [] ∧ rest ≠ [] then [.root] else []

/-- The components of a path. -/
def components (p : Path) : List Component :=
  let segments := split slash p.text.toList
  leading segments ++ segments.filterMap Component.ofSegment

/-- Paths are ordered by their components, a shorter path before its extensions. -/
instance : Ord Path where
  compare := compareOn components

instance : Std.TransOrd Path :=
  inferInstanceAs (Std.TransCmp (compareOn components))

/-- Whether a path comes before another or is the same. -/
def le (p q : Path) : Bool :=
  (compare p q).isLE

/-- Whether a path starts at the root. -/
def isAbsolute (p : Path) : Bool :=
  p.text.toList.head? = some slash

/-- Whether a separator ends the path. -/
def endsInSeparator (p : Path) : Bool :=
  p.text.toList.getLast? = some slash

/-- The path of the entry `name` of the directory `dir`. A name that is an
absolute path takes the place of the directory. -/
def join (dir : Path) (name : RawText) : Path :=
  if isAbsolute ⟨name⟩ then ⟨name⟩
  else if dir.text = "" || dir.endsInSeparator then ⟨dir.text ++ name⟩
  else ⟨dir.text ++ "/" ++ name⟩

/-- The last component, if it is a name. -/
def fileName (p : Path) : Option RawText :=
  match p.components.getLast? with
  | some (.name n) => some n
  | _ => none

/-- The plain spelling of a list of components. -/
def respell : List Component → Path
  | .root :: rest => ⟨"/" ++ RawText.intercalate "/" (rest.map Component.segment)⟩
  | rest => ⟨RawText.intercalate "/" (rest.map Component.segment)⟩

/-- The text that shows a path. -/
def display (p : Path) : String :=
  p.text.display

end Path

/-! ## Names of files -/

/-- The extension of a file name: what follows its last dot, if a dot other than
the first byte divides it. -/
def extensionOf (name : RawText) : Option RawText :=
  match split dot name.toList with
  | [_] => none
  | [[], _] => none
  | pieces => pieces.getLast?.map RawText.ofList

/-- Whether a file name marks a hidden file. A name that is no text marks none. -/
def isHidden (name : RawText) : Bool :=
  name.toString?.any fun text => text.toList.head? = some '.'

/-- The identifier that the text of a file name gives: the part before its first dot,
if there is any. -/
def identifierOfText (text : String) : Option String :=
  match split '.' text.toList with
  | [] => none
  | [] :: _ => none
  | first :: _ => some (String.ofList first)

/-- The identifier of the table in a file. A name that is no text gives none. -/
def identifierOf (p : Path) : Option String :=
  (p.fileName.bind RawText.toString?).bind identifierOfText

end JavaEntities
