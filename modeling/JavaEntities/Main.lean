import JavaEntities.CommandLine.Program

/-!
# The command line

The program on a disk. Everything that is decided is decided by
`CommandLine.program`, on a tree. This module takes into the tree what a run can
ask about, and afterwards makes on the disk the changes that the run has made in
the tree: nothing is removed that was not in the tree before.

The words of the command line and the names on the disk reach this module as texts,
and only as texts. A name of a tree that is none is on no disk that it sees.
-/

namespace JavaEntities.Shell

open FileSystem

/-- An entry of a directory of the disk. -/
def entry (dir : Address) (name : RawText) : IO.FS.DirEntry :=
  { root := (pathOf dir).display, fileName := name.display }

/-- The path that a link leads to, or a name that no disk has if it leads nowhere. -/
def target (e : IO.FS.DirEntry) : IO String := do
  try
    return (← IO.FS.realPath e.path).toString
  catch _ => return "\x00"

/-- What an entry of the disk is, without what is below it. -/
def look (e : IO.FS.DirEntry) : IO (Option Node) := do
  try
    match (← e.path.symlinkMetadata).type with
    | .dir => return some (.dir [])
    | .file => return some (.file (← IO.FS.readBinFile e.path))
    | .symlink => return some (.link (← target e))
    | .other => return none
  catch _ => return none

/-- Takes the way that a path describes into the tree, as far as the disk has it. -/
partial def reveal (fs : FileSystem) (p : Path) : IO FileSystem := do
  let .ok (.absent dir name _) := fs.follow (fun _ => true) p | return fs
  let some n ← look (entry dir name) | return fs
  let .ok fs := fs.addEntry dir name n | return fs
  reveal fs p

/-- Takes the entries of a directory into the tree. -/
def fill (fs : FileSystem) (a : Address) : IO FileSystem := do
  let entries ← (entry a ".").path.readDir
  entries.foldlM (fun fs e => reveal fs ((pathOf a).join e.fileName)) fs

/-- Takes everything below a directory into the tree; links are not followed. -/
partial def fillDeep (fs : FileSystem) (a : Address) : IO FileSystem := do
  let some (.dir _) := fs.root.get? a | return fs
  let fs ← fill fs a
  let names := ((fs.root.get? a).map Node.names).getD []
  names.foldlM (fun fs n => fillDeep fs (a ++ [n])) fs

/-- Takes into the tree what settles where a directory is. -/
def revealDir (fs : FileSystem) (dir : Path) : IO FileSystem := do
  let fs ← reveal fs dir
  match fs.absolute dir with
  | .ok components => reveal fs (pathOf (fold components))
  | .error _ => return fs

/-- Takes into the tree what a run can ask about. -/
def gather (fs : FileSystem) (o : Overrides) : IO FileSystem := do
  let here : Path := ⟨"."⟩
  let fs ← reveal fs (o.config.getD (here.join Configuration.fileName))
  let .ok s := Settings.gather Toml.parse? fs here o | return fs
  let c := s.configuration
  let fs ← revealDir fs c.inputDir
  let fs ← revealDir fs c.outputDir
  let .ok _ := c.check fs | return fs
  let fs ← match fs.canonical? c.inputDir with
    | some a => fill fs a
    | none => pure fs
  match fs.canonical? c.outputDir with
  | some a => fillDeep fs a
  | none => return fs

/-- Removes from the disk a node that was in the tree. -/
partial def remove (dir : Address) (name : RawText) : Node → IO Unit
  | .dir entries => do
    for e in entries do
      remove (dir ++ [name]) e.1 e.2
    IO.FS.removeDir (entry dir name).path
  | _ => IO.FS.removeFile (entry dir name).path

/-- Makes on the disk a node of the tree. A run makes no links. -/
partial def make (dir : Address) (name : RawText) : Node → IO Unit
  | .dir entries => do
    IO.FS.createDir (entry dir name).path
    for e in entries do
      make (dir ++ [name]) e.1 e.2
  | .file bytes => IO.FS.writeBinFile (entry dir name).path bytes
  | .link _ => return

/-- Makes on the disk the changes between two trees of a directory. -/
partial def carryOut (dir : Address) (old new : List (RawText × Node)) : IO Unit := do
  for (name, n) in old do
    match n, new.lookup name with
    | .dir olds, some (.dir news) => carryOut (dir ++ [name]) olds news
    | .file bytes, some (.file bytes') =>
      unless bytes == bytes' do
        make dir name (.file bytes')
    | .link _, some (.link _) => pure ()
    | n, some n' => do
      remove dir name n
      make dir name n'
    | n, none => remove dir name n
  for (name, n) in new do
    if (old.lookup name).isNone then
      make dir name n

/-- The entries of a directory. -/
def entriesOf : Node → List (RawText × Node)
  | .dir entries => entries
  | _ => []

/-- Runs the program on the disk. -/
def run (words : List RawText) : IO UInt32 := do
  let current := segments (← IO.FS.realPath ".").toString
  let fs ← reveal ⟨.dir [], current⟩ (pathOf current)
  let fs ← match CommandLine.parse words with
    | .ok (.run _ o) => gather fs o
    | _ => pure fs
  let o := CommandLine.program words (← IO.getEnv "RUST_LOG") fs
  carryOut [] (entriesOf fs.root) (entriesOf o.files.root)
  IO.print o.stdout
  IO.eprint o.stderr
  return o.code.toUInt32

end JavaEntities.Shell

def main (args : List String) : IO UInt32 :=
  JavaEntities.Shell.run (args.map JavaEntities.RawText.ofString)
