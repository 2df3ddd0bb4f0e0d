import JavaEntities.Configuration.Check
import JavaEntities.Configuration.File

/-!
# Settings

The configuration of a run comes in three layers: the defaults, a configuration
file over them, and what the user asks for over both. The file is the one that
the user names, which must exist, or else the one with the usual name, if it is
there. Only the outcome of all three is checked: what the user asks for can mend
a file or spoil it.

Mirrors `resolve_in` and `apply_overrides`. The settings are gathered first and
checked then, so that what the user asks for can be told apart from the verdict.
-/

namespace JavaEntities

/-- What the user asks for beside the configuration file. -/
structure Overrides where
  /-- The configuration file to read. -/
  config : Option Path := none
  inputDir : Option Path := none
  outputDir : Option Path := none
  logLevel : Option LogLevel := none
  /-- Whether to pass over inputs that cannot be read. -/
  skipUnreadable : Bool := false
  deriving DecidableEq, Repr, Inhabited

namespace Overrides

/-- What is asked for in either of two places; of two values the first counts. -/
def orElse (o p : Overrides) : Overrides where
  config := o.config <|> p.config
  inputDir := o.inputDir <|> p.inputDir
  outputDir := o.outputDir <|> p.outputDir
  logLevel := o.logLevel <|> p.logLevel
  skipUnreadable := o.skipUnreadable || p.skipUnreadable

/-- A configuration with what the user asks for. -/
def apply (o : Overrides) (c : Configuration) : Configuration :=
  { c with
    inputDir := o.inputDir.getD c.inputDir
    outputDir := o.outputDir.getD c.outputDir
    logLevel := o.logLevel.getD c.logLevel
    onReadError := if o.skipUnreadable then .skip else c.onReadError }

end Overrides

/-- Why there are no settings. -/
inductive SettingsError
  /-- The configuration file does not give a configuration. -/
  | file (path : Path) (cause : Error)
  /-- The outcome of all layers is at fault. -/
  | outcome (fault : Error)
  deriving DecidableEq, Repr, Inhabited

/-- The configuration of a run, and the file that it comes from. -/
structure Settings where
  configuration : Configuration
  source : Option Path
  deriving DecidableEq, Repr, Inhabited

namespace Settings

/-- The configuration file that is read, if any. -/
def choose (fs : FileSystem) (base : Path) (o : Overrides) : Option Path :=
  match o.config with
  | some file => some file
  | none =>
    let usual := base.join Configuration.fileName
    if fs.isFile usual then some usual else none

/-- The configuration below what the user asks for. -/
def underlying (read : Toml.TableReader) (fs : FileSystem) :
    Option Path → Except SettingsError Configuration
  | none => .ok {}
  | some file =>
    match Configuration.ofFile read fs file with
    | .error e => .error (.file file e)
    | .ok c => .ok c

/-- The settings before they are checked. -/
def gather (read : Toml.TableReader) (fs : FileSystem) (base : Path) (o : Overrides) :
    Except SettingsError Settings :=
  let source := choose fs base o
  match underlying read fs source with
  | .error e => .error e
  | .ok c => .ok ⟨o.apply c, source⟩

/-- The settings of a run that is started in the directory `base`, for a reader of
configuration files. -/
def resolve (read : Toml.TableReader) (fs : FileSystem) (base : Path) (o : Overrides) :
    Except SettingsError Settings :=
  match gather read fs base o with
  | .error e => .error e
  | .ok s =>
    match s.configuration.check fs with
    | .error e => .error (.outcome e)
    | .ok _ => .ok s

end Settings

end JavaEntities
