import JavaEntities.FileSystem.Node
import JavaEntities.Text.Split

/-!
# Walking a tree

A path is followed segment by segment. A link on the way is replaced by the path
it points to, at most a fixed number of times; whether a link at the end of the path is
followed depends on the operation. `walk` says where the way ends: at a node, at
a name that is missing, at a file where a directory is needed, or at a link.

An empty segment stands for a separator at the end of a path. It stays in the
directory like `.`, but operations that create something tell the two apart.

It stands for the lookup of a path by the system, with its limits on names and
links.
-/

namespace JavaEntities.FileSystem

/-- The longest name of an entry, in bytes. -/
def nameLimit : Nat := 255

/-- The number of links that are followed before a path is given up. -/
def linkLimit : Nat := 40

/-- Where a way through a tree ends. -/
inductive Stop
  /-- At a node, after every segment. -/
  | reached (a : Address)
  /-- At a name that the directory does not have, with the segments after it. -/
  | absent (dir : Address) (name : RawText) (rest : List RawText)
  /-- At a file with segments after it. -/
  | blocked (file : Address) (rest : List RawText)
  /-- At a link, with the segments after it. -/
  | link (dir : Address) (name target : RawText) (rest : List RawText)
  /-- At a name that is too long for any directory, with the segments after it. -/
  | tooLong (rest : List RawText)
  /-- At one link too many. -/
  | endless
  deriving Repr, Inhabited

/-- The segments of a path: what stands between separators, and an empty one if a
separator ends the path. -/
def segments (text : RawText) : List RawText :=
  let named := ((Text.split slash text.toList).filter (· ≠ [])).map RawText.ofList
  if text.toList.getLast? = some slash then named ++ [("" : RawText)] else named

/-- The address from which a text is followed: the root if a separator begins it. -/
def origin (current : Address) (text : RawText) : Address :=
  if text.toList.head? = some slash then [] else current

/-- Follows segments from an address up to the first link. -/
def Node.advance (t : Node) : Address → List RawText → Stop
  | a, [] => .reached a
  | a, s :: rest =>
    if s = "" ∨ s = "." then t.advance a rest
    else if s = ".." then t.advance a.dropLast rest
    else if nameLimit < s.size then .tooLong rest
    else
      match t.get? (a ++ [s]) with
      | none => .absent a s rest
      | some (.dir _) => t.advance (a ++ [s]) rest
      | some (.file _) => if rest = [] then .reached (a ++ [s]) else .blocked (a ++ [s]) rest
      | some (.link target) => .link a s target rest

/-- Follows segments from an address, and at most `links` links. A link is
followed if `follow` says so of the segments after it. -/
def Node.walk (t : Node) (follow : List RawText → Bool) :
    Nat → Address → List RawText → Stop
  | 0, a, segs =>
    match t.advance a segs with
    | .link place name target rest => if follow rest then .endless else .link place name target rest
    | stop => stop
  | links + 1, a, segs =>
    match t.advance a segs with
    | .link place name target rest =>
      if follow rest then t.walk follow links (origin place target) (segments target ++ rest)
      else .link place name target rest
    | stop => stop

end JavaEntities.FileSystem
