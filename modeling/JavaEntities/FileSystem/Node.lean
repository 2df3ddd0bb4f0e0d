import JavaEntities.Text.Raw

/-!
# Nodes of a file system

A file system is a tree: files with their bytes, links with the path they point
to, and directories with named entries in the order in which they are listed. The
address of a node is the list of the names that lead to it from the root.

`get?` is the view of a tree: what stands at an address. Changes go through
`modify`, which changes the node at one address and leaves the others.

It stands for the directories of the system. Everything else that the system keeps
of a file, such as its owner and times, is left out.
-/

namespace JavaEntities.FileSystem

/-- The names that lead to a node from the root. -/
abbrev Address := List RawText

/-- A file, a link or a directory. -/
inductive Node
  | file (bytes : ByteArray)
  | link (target : RawText)
  | dir (entries : List (RawText × Node))
  deriving Inhabited

namespace Node

/-- The entry of a directory with a name. -/
def child? (n : RawText) : Node → Option Node
  | dir entries => entries.lookup n
  | _ => none

/-- The node at an address. -/
def get? : Node → Address → Option Node
  | t, [] => some t
  | t, n :: a => (t.child? n).bind fun c => c.get? a

/-- Whether a node is a directory. -/
def isDir : Node → Bool
  | dir _ => true
  | _ => false

/-- Whether a node is a file. -/
def isFile : Node → Bool
  | file _ => true
  | _ => false

/-- The names of the entries of a directory, in the order of listing. -/
def names : Node → List RawText
  | dir entries => entries.map Prod.fst
  | _ => []

/-- The directory with one more entry, listed last. -/
def addChild (n : RawText) (c : Node) : Node → Node
  | dir entries => dir (entries ++ [(n, c)])
  | t => t

/-- The directory without the entry of a name. -/
def dropChild (n : RawText) : Node → Node
  | dir entries => dir (entries.filter fun e => e.1 ≠ n)
  | t => t

/-- The tree with the node at an address changed, if there is one. -/
def modify (f : Node → Node) : Address → Node → Node
  | [], t => f t
  | n :: a, dir entries =>
    dir (entries.map fun e => if e.1 = n then (e.1, modify f a e.2) else e)
  | _ :: _, t => t

end Node

end JavaEntities.FileSystem
