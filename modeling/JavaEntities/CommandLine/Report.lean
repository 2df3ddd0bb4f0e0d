import JavaEntities.CommandLine.Arguments
import JavaEntities.Generation
import JavaEntities.Text.Json
import JavaEntities.Text.Terminal

/-!
# What the program writes

The texts on standard output, one for each command, and those for errors. Every
text is whole lines.

Mirrors the printing of `generate`, `plan` and `check`, with `render_json` and
`PlanEntry`. Every error that is none of a run has the code 1, as in `main`; the
only one is that of a plan with a path that is no text.
-/

namespace JavaEntities.CommandLine

/-- A text as a line. -/
def line (s : String) : String :=
  s ++ "\n"

/-- The lines of texts. -/
def lines (texts : List String) : String :=
  String.join (texts.map line)

/-! ## Standard output -/

/-- The report of a run. -/
def generatedReport (c : Configuration) (s : Summary) : String :=
  lines (("Generated " ++ toString s.artifacts ++ " files from " ++ toString s.schemas
      ++ " schemas into " ++ c.outputDir.display)
    :: s.skipped.map fun p => "  skipped: " ++ p.display)

/-- The members that describe an artifact, if its path is a text. -/
def artifactMembers? (a : Artifact) : Option (List (String × String)) :=
  a.path.text.toString?.map fun path =>
    [("identifier", a.identifier), ("variant", a.variant.name), ("class_name", a.className),
      ("path", path)]

/-- Everything but the contents of artifacts as JSON, if their paths are texts. -/
def renderJson? (artifacts : List Artifact) : Option String :=
  (artifacts.mapM artifactMembers?).map Text.Json.objects

/-- The paths of artifacts, one on a line. -/
def pathLines (artifacts : List Artifact) : String :=
  lines (artifacts.map fun a => a.path.display)

/-- The first line of a check: where the configuration comes from. -/
def sourceLine (s : Settings) : String :=
  line ("Checking configuration: " ++ (s.source.map Path.display).getD "(defaults)")

/-- The lines of a check that name the directories, written before the inputs are loaded. -/
def directoryLines (c : Configuration) : String :=
  lines ["✓ Input: " ++ c.inputDir.display ++ " (*." ++ c.inputExtension ++ ")",
    "✓ Output: " ++ c.outputDir.display ++ " (*." ++ c.outputExtension ++ ")"]

/-- The other lines of a check. -/
def checkReport (l : Loaded) : String :=
  lines (("✓ Inputs: " ++ toString l.inputs)
    :: (l.schemas.schemas.map fun s =>
        "  " ++ s.identifier ++ " (" ++ toString s.fields.length ++ " fields)")
      ++ (l.schemas.skipped.map fun p =>
        "  " ++ (identifierOf p).getD p.display ++ " (unreadable, skipped)")
      ++ ["", "Configuration is valid!"])

/-- The version of the program. -/
def versionText : String :=
  line "entitygen 0.1.0"

/-- How the program is used. -/
def helpText : String :=
  lines ["Generate Java entity classes from CSV field definitions",
    "",
    "Usage: entitygen [OPTIONS] [COMMAND]",
    "",
    "Commands:",
    "  generate  Regenerate the output directory from the input files",
    "  plan      Show the files a run would write, without writing them",
    "  check     Validate the configuration and list discovered inputs",
    "  help      Print this message or the help of the given subcommand(s)",
    "",
    "Options:",
    "  -c, --config <CONFIG>          Path to configuration file",
    "  -i, --input-dir <INPUT_DIR>    Directory scanned for input files",
    "  -o, --output-dir <OUTPUT_DIR>  Directory to regenerate",
    "  -l, --log-level <LOG_LEVEL>    Log level (trace, debug, info, warn, error, off)",
    "      --skip-unreadable          Skip unreadable inputs instead of aborting",
    "  -h, --help                     Print help",
    "  -V, --version                  Print version"]

/-! ## Standard error -/

/-- The messages of an error, from the outermost to its cause. -/
def errorChain (e : Error) : List String :=
  e.message :: e.causeMessage.toList

/-- Why a command fails that has its settings. -/
inductive Failure
  /-- With an error of a run. -/
  | run (e : Error)
  /-- The plan has a path that JSON cannot hold. -/
  | notJson
  deriving DecidableEq, Repr, Inhabited

namespace Failure

/-- The messages of a failure, from the outermost to its cause. -/
def chain : Failure → List String
  | run e => errorChain e
  | notJson => ["Failed to serialize plan", "path contains invalid UTF-8 characters"]

/-- The exit code of a failure: an error that is none of a run has no code of its own. -/
def exitCode : Failure → Nat
  | run e => e.exitCode
  | notJson => 1

end Failure

/-- The line for a list of messages. -/
def failureLine (chain : List String) : String :=
  line ("Error: " ++ ": ".intercalate chain)

/-- The messages of an error that leaves the program without settings. -/
def settingsChain : SettingsError → List String
  | .file path cause => ("Failed to load configuration from " ++ path.display) :: errorChain cause
  | .outcome fault => errorChain fault

/-- The exit code of an error that leaves the program without settings. -/
def settingsExitCode : SettingsError → Nat
  | .file _ cause => cause.exitCode
  | .outcome fault => fault.exitCode

/-- The exit code of a usage error. -/
def usageExitCode : Nat := 2

/-- The text for a usage error. -/
def usageText (e : UsageError) : String :=
  Text.plain (lines ["error: " ++ e.message, "", "For more information, try '--help'."])

end JavaEntities.CommandLine
