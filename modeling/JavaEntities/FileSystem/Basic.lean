import JavaEntities.Error
import JavaEntities.FileSystem.Walk

/-!
# File systems

A file system is a tree and the directory that relative paths start from. This
module holds what can be asked of one; nothing here changes it. Questions follow
every link. `canonical?` is the address that a path leads to, and `absolute` the
components of a path made absolute without asking the tree.

Mirrors what the program asks the system for: `exists`, `is_file`,
`read_to_string`, `read_dir`, `canonicalize` and `absolute`. A tree has no
permissions, and whatever can be found in it can be read.
-/

namespace JavaEntities

/-- A tree and its current directory. -/
structure FileSystem where
  root : FileSystem.Node
  current : FileSystem.Address := []
  deriving Inhabited

namespace FileSystem

/-- The longest path, in bytes, with the mark that ends it. -/
def pathLimit : Nat := 4096

/-- The error at the end of a way that was to lead to a node. -/
def Stop.refusal : Stop → OsError
  | .reached _ => .notFound
  | .absent .. => .notFound
  | .blocked .. => .notDirectory
  | .link .. => .linkLoop
  | .tooLong _ => .nameTooLong
  | .endless => .linkLoop

/-- Where the way that a path describes ends. -/
def follow (fs : FileSystem) (links : List RawText → Bool) (p : Path) : Except IoCause Stop :=
  if p.text.toList.contains 0 then .error .nulInPath
  else if p.text = "" then .error (.os .notFound)
  else if pathLimit ≤ p.text.size then .error (.os .nameTooLong)
  else .ok (fs.root.walk links linkLimit (origin fs.current p.text) (segments p.text))

/-- The address and the node that a path leads to. -/
def locate (fs : FileSystem) (p : Path) : Except IoCause (Address × Node) :=
  match fs.follow (fun _ => true) p with
  | .error c => .error c
  | .ok (.reached a) =>
    match fs.root.get? a with
    | some n => .ok (a, n)
    | none => .error (.os .notFound)
  | .ok stop => .error (.os stop.refusal)

/-- Whether a path leads to anything. -/
def exists? (fs : FileSystem) (p : Path) : Bool :=
  (fs.locate p).isOk

/-- Whether a path leads to a file. -/
def isFile (fs : FileSystem) (p : Path) : Bool :=
  match fs.locate p with
  | .ok (_, n) => n.isFile
  | .error _ => false

/-- Whether a path leads to a directory. -/
def isDir (fs : FileSystem) (p : Path) : Bool :=
  match fs.locate p with
  | .ok (_, n) => n.isDir
  | .error _ => false

/-- The text of a file. -/
def readText (fs : FileSystem) (p : Path) : Except IoCause String :=
  match fs.locate p with
  | .error c => .error c
  | .ok (_, .file bytes) =>
    match String.fromUTF8? bytes with
    | some s => .ok s
    | none => .error .notText
  | .ok (_, _) => .error (.os .isDirectory)

/-- The names in a directory, in the order of listing. -/
def list (fs : FileSystem) (p : Path) : Except IoCause (List RawText) :=
  match fs.locate p with
  | .error c => .error c
  | .ok (_, .dir entries) => .ok (entries.map Prod.fst)
  | .ok (_, _) => .error (.os .notDirectory)

/-- The address that a path leads to. The text of the path is held to `pathLimit`, like the
text of any other. Of the system's own limits on an address two are left out: the walk it
makes has no limit on the text it starts from, and none of its addresses is longer than
4096 bytes. -/
def canonical? (fs : FileSystem) (p : Path) : Option Address :=
  match fs.locate p with
  | .ok (a, _) => some a
  | .error _ => none

/-- The components of a path made absolute: those of a relative path come after
the current directory. -/
def absolute (fs : FileSystem) (p : Path) : Except IoCause (List Component) :=
  if p.text = "" then .error .emptyPath
  else if p.isAbsolute then .ok p.components
  else .ok (.root :: fs.current.map Component.name ++ p.components)

/-- The address that components lead to when no name on the way is a link. -/
def fold (components : List Component) : Address :=
  components.foldl (fun a c =>
    match c with
    | .root => []
    | .here => a
    | .up => a.dropLast
    | .name n => a ++ [n]) []

/-- The absolute path of an address. -/
def pathOf (a : Address) : Path :=
  Path.respell (.root :: a.map Component.name)

end FileSystem

end JavaEntities
