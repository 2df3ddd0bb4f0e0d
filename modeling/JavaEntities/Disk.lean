import JavaEntities.FileSystem.Change
import JavaEntities.Log.Event
import JavaEntities.Sink

/-!
# The disk as a sink

Artifacts go to a directory of a file system. Emptying the sink removes the
directory, if its path leads to anything, and makes it again with the directories
above it; a write makes or replaces one file and no directory.

Mirrors `FsSink`. Its `root` is an argument of the calls. A call fails only where
the tree says so: no disk is full and no permission is missing.
-/

namespace JavaEntities

/-- A file system and what has been reported about it. -/
structure Disk where
  files : FileSystem
  events : List Event := []
  deriving Inhabited

namespace Disk

/-- The disk with one more event. -/
def report (d : Disk) (e : Event) : Disk :=
  { d with events := d.events ++ [e] }

/-- Makes the directory of the output and those above it. -/
def makeOutput (root : Path) : SinkCall Disk Unit := fun d =>
  match d.files.makeDirs root with
  | (.error cause, files) => (.error (.outputWrite root cause), { d with files })
  | (.ok _, files) => (.ok (), { d with files })

/-- Removes the directory of the output and makes it again. -/
def reset (root : Path) : SinkCall Disk Unit := fun d =>
  if d.files.exists? root then
    match d.files.removeAll root with
    | (.error cause, files) => (.error (.outputWrite root cause), { d with files })
    | (.ok _, files) => makeOutput root (report { d with files } (.outputRemoved root))
  else makeOutput root d

/-- Writes one file. -/
def write (p : Path) (contents : String) : SinkCall Disk Unit := fun d =>
  match d.files.writeText p contents with
  | .error cause => (.error (.outputWrite p cause), d)
  | .ok files => (.ok (), report { d with files } (.artifactWritten p contents.utf8ByteSize))

/-- The calls of the disk for an output directory. -/
def sink (root : Path) : Sink Disk where
  reset := Disk.reset root
  write := Disk.write

end Disk

end JavaEntities
