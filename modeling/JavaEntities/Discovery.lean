import JavaEntities.FileSystem.Basic

/-!
# Discovery of inputs

The inputs of a run are the files of one directory that have the right extension
and are not hidden. Links to files count as files. Inputs are in the order of
paths, whatever the order in which the directory is listed.

Mirrors `discover_inputs`. A directory is listed in one step, which fails or gives
every name; the program may also fail at a single entry. The tests on a name are
`has_extension` and `is_hidden`, which ask a path for its name first; here they
are asked of the name.
-/

namespace JavaEntities

/-- Whether a file name is that of an input with this extension. -/
def isInputName (extension : String) (name : RawText) : Bool :=
  (extensionOf name).bind RawText.toString? = some extension && !isHidden name

/-- The inputs among the names that a directory lists. -/
def inputsAmong (fs : FileSystem) (dir : Path) (extension : String) (names : List RawText) :
    List Path :=
  ((names.filter fun n => fs.isFile (dir.join n) && isInputName extension n).map dir.join).mergeSort
    Path.le

/-- The inputs of a directory. -/
def discover (fs : FileSystem) (dir : Path) (extension : String) : Except Error (List Path) :=
  match fs.list dir with
  | .error cause => .error (.discovery dir cause)
  | .ok names => .ok (inputsAmong fs dir extension names)

end JavaEntities
