import JavaEntities.Configuration.Basic
import JavaEntities.FileSystem.Basic

/-!
# Checking a configuration

A run removes its output directory, so the output must not hold the inputs.
Both directories are resolved first: to the address that the path leads to, or,
where it leads nowhere yet, to the address that its components give. Extensions
must be single words, and the output must have a path at all.

Mirrors `validate`, `resolve_dir` and `validate_extension`. A directory is
resolved to an address, not to a path, and the comparison is of addresses.
-/

namespace JavaEntities

/-- The address that a directory has, or would have if it were made. -/
def resolveDir (fs : FileSystem) (dir : Path) : Except Error FileSystem.Address :=
  match fs.canonical? dir with
  | some a => .ok a
  | none =>
    match fs.absolute dir with
    | .error cause => .error (.config (.unresolvable dir cause))
    | .ok components =>
      let folded := FileSystem.fold components
      .ok ((fs.canonical? (FileSystem.pathOf folded)).getD folded)

/-- Whether an extension holds a dot or a separator of any system. -/
def isCompound (extension : String) : Bool :=
  extension.toList.any fun c => c = '.' || c = '/' || c = '\\'

/-- Checks that an extension is a single word. -/
def checkExtension (key : ExtensionKey) (extension : String) : Except Error Unit :=
  if extension = "" then .error (.config (.emptyExtension key))
  else if isCompound extension then .error (.config (.compoundExtension key extension))
  else .ok ()

namespace Configuration

/-- Checks that removing the output leaves the directory of the inputs. -/
def checkDirs (c : Configuration) (fs : FileSystem) : Except Error Unit := do
  let input ← resolveDir fs c.inputDir
  let output ← resolveDir fs c.outputDir
  if output.isPrefixOf input then .error (.config (.outputHoldsInput c.outputDir c.inputDir))

/-- Checks a configuration; the first fault is the error. -/
def check (c : Configuration) (fs : FileSystem) : Except Error Unit := do
  checkExtension .input c.inputExtension
  checkExtension .output c.outputExtension
  if c.outputDir.text = "" then .error (.config .emptyOutputDir)
  c.checkDirs fs

end Configuration

end JavaEntities
