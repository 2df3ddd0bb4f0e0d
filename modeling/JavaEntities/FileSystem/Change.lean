import JavaEntities.FileSystem.Basic

/-!
# Changing a file system

Each change gives the new file system, or the cause for which it was refused. A
refused change of a single entry leaves everything as it was; making a directory
with those above it, and removing a directory with what it holds, may have done a
part of their work when they fail, and so give the file system in either case.

Removing acts on the path as it is spelled: a link is removed itself, a directory
is first emptied and then removed by its last name. A path that ends in `.` or
`..` has no such name, and what it leads to stays, emptied.

Mirrors `create_dir_all`, `remove_dir_all` and `write` of the system. A removal is
not carried out entry by entry: nothing in a tree can keep an entry from being
removed.
-/

namespace JavaEntities.FileSystem

/-- The tree with one more entry in a directory, if there is this directory. -/
def addEntry (fs : FileSystem) (dir : Address) (name : RawText) (n : Node) :
    Except IoCause FileSystem :=
  match fs.root.get? dir with
  | some (.dir _) => .ok { fs with root := fs.root.modify (Node.addChild name n) dir }
  | _ => .error (.os .notFound)

/-- The tree without an entry of a directory. -/
def dropEntry (fs : FileSystem) (dir : Address) (name : RawText) : FileSystem :=
  { fs with root := fs.root.modify (Node.dropChild name) dir }

/-- Whether only a separator may follow. -/
def atEnd (rest : List RawText) : Bool :=
  rest = [] || rest = [("" : RawText)]

/-- Makes a directory. A link at the end of the path is in the way. -/
def makeDir (fs : FileSystem) (p : Path) : Except IoCause FileSystem :=
  match fs.follow (fun rest => !atEnd rest) p with
  | .error c => .error c
  | .ok (.reached _) => .error (.os .alreadyExists)
  | .ok (.absent dir name rest) =>
    if atEnd rest then fs.addEntry dir name (.dir []) else .error (.os .notFound)
  | .ok (.blocked _ rest) =>
    .error (.os (if atEnd rest then .alreadyExists else .notDirectory))
  | .ok (.link ..) => .error (.os .alreadyExists)
  | .ok stop => .error (.os stop.refusal)

/-- The path and those above it, as far as a directory can be made at them. -/
def chain (p : Path) : List Path :=
  let components := p.components
  let least := if p.isAbsolute then 2 else 1
  if components.length < least then []
  else
    p :: ((List.range (components.length - least)).map fun i =>
      Path.respell (components.take (components.length - 1 - i)))

/-- Makes the first directory of a list, after those behind it if it needs them. -/
def makeChain : List Path → FileSystem → Except IoCause Unit × FileSystem
  | [], fs => (.ok (), fs)
  | p :: above, fs =>
    match fs.makeDir p with
    | .ok fs' => (.ok (), fs')
    | .error (.os .notFound) =>
      match makeChain above fs with
      | (.error c, fs') => (.error c, fs')
      | (.ok _, fs') =>
        match fs'.makeDir p with
        | .ok fs'' => (.ok (), fs'')
        | .error c =>
          if c = .os .alreadyExists ∧ fs'.isDir p then (.ok (), fs') else (.error c, fs')
    | .error c => if c = .os .alreadyExists ∧ fs.isDir p then (.ok (), fs) else (.error c, fs)

/-- Makes a directory and those above it that are missing. -/
def makeDirs (fs : FileSystem) (p : Path) : Except IoCause Unit × FileSystem :=
  makeChain (chain p) fs

/-- Removes an empty directory by the last name of its path. -/
def removeDir (fs : FileSystem) (p : Path) : Except IoCause FileSystem :=
  match fs.follow (fun rest => !atEnd rest) p with
  | .error c => .error c
  | .ok (.reached a) =>
    match ((segments p.text).filter (· ≠ ("" : RawText))).getLast? with
    | none => .error (.os .busy)
    | some last =>
      if last = "." then .error (.os .invalidArgument)
      else if last = ".." then .error (.os .notEmpty)
      else
        match fs.root.get? a with
        | some (.dir []) => .ok (fs.dropEntry a.dropLast last)
        | some (.dir _) => .error (.os .notEmpty)
        | _ => .error (.os .notDirectory)
  | .ok (.link ..) => .error (.os .notDirectory)
  | .ok stop => .error (.os stop.refusal)

/-- Removes a link, or a directory with all it holds. If the way to the directory
led through what it held, it stays as the empty directory that it has become. -/
def removeAll (fs : FileSystem) (p : Path) : Except IoCause Unit × FileSystem :=
  match fs.follow (fun rest => rest ≠ []) p with
  | .error c => (.error c, fs)
  | .ok (.link dir name _ _) => (.ok (), fs.dropEntry dir name)
  | .ok (.reached a) =>
    match fs.root.get? a with
    | some (.dir _) =>
      let emptied := { fs with root := fs.root.modify (fun _ => .dir []) a }
      match emptied.removeDir p with
      | .ok removed => (.ok (), removed)
      | .error (.os .notFound) => (.ok (), emptied)
      | .error c => (.error c, emptied)
    | some _ => (.error (.os .notDirectory), fs)
    | none => (.error (.os .notFound), fs)
  | .ok stop => (.error (.os stop.refusal), fs)

/-- Whether the segments after a name are the mark of a separator that ends a path. -/
def isMarked (rest : List RawText) : Bool :=
  rest = [("" : RawText)]

/-- Writes a file, in place of one that the path leads to. A path that a separator
ends stands for a directory, whatever its last name leads to. -/
def writeBytes (fs : FileSystem) (p : Path) (bytes : ByteArray) : Except IoCause FileSystem :=
  match fs.follow (fun rest => !isMarked rest) p with
  | .error c => .error c
  | .ok (.reached a) =>
    match fs.root.get? a with
    | some (.file _) => .ok { fs with root := fs.root.modify (fun _ => .file bytes) a }
    | some _ => .error (.os .isDirectory)
    | none => .error (.os .notFound)
  | .ok (.absent dir name rest) =>
    if rest = [] then fs.addEntry dir name (.file bytes)
    else .error (.os (if isMarked rest then .isDirectory else .notFound))
  | .ok (.blocked _ rest) =>
    .error (.os (if isMarked rest then .isDirectory else .notDirectory))
  | .ok (.link ..) => .error (.os .isDirectory)
  | .ok (.tooLong rest) =>
    .error (.os (if isMarked rest then .isDirectory else .nameTooLong))
  | .ok .endless => .error (.os .linkLoop)

/-- Writes a text file, in place of one that the path leads to. -/
def writeText (fs : FileSystem) (p : Path) (text : String) : Except IoCause FileSystem :=
  fs.writeBytes p text.toUTF8

end JavaEntities.FileSystem
