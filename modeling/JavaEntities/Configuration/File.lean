import JavaEntities.Configuration.Decode
import JavaEntities.FileSystem.Basic

/-!
# Configuration files

A configuration file is a text file that describes a configuration. A file that
cannot be read is a fault of the configuration, not of the inputs.

Mirrors `from_file` and `CONFIG_FILE_NAME`.
-/

namespace JavaEntities.Configuration

/-- The name of the file that is read when no other is named. -/
def fileName : String := "entitygen.toml"

/-- The configuration in a file, for a reader of documents. -/
def ofFile (read : Toml.TableReader) (fs : FileSystem) (file : Path) : Except Error Configuration :=
  match fs.readText file with
  | .error cause => .error (.config (.unreadable file cause))
  | .ok text => ofText read text

end JavaEntities.Configuration
