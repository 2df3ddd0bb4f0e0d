import JavaEntities.CommandLine.Report
import JavaEntities.Disk

/-!
# The program

`program` is the whole of a command line: from the words, the level that the
environment asks for and a file system to what is written, the exit code and the
file system afterwards. Nothing is logged before the settings are known. A command
checks the configuration that it is given, also when the settings have passed the
check already.

Mirrors `main` and the `run` of each command. Mirroring notes:
- The program prints as it goes. Here a command gives its output, its log and the
  file system in the end, so where the two streams interleave is lost.
- `init_logging` reads the environment itself. Here the level that it asks for is
  an argument, and of what it can ask for only a single level is understood.
- Standard output is taken to accept everything.
-/

namespace JavaEntities.CommandLine

/-- What a command has done. -/
structure Execution where
  events : List Event
  output : String
  result : Except Failure Unit
  files : FileSystem

/-- An execution that ends with an error before anything is reported or changed. -/
def Execution.refused (output : String) (e : Error) (fs : FileSystem) : Execution :=
  ⟨[], output, .error (.run e), fs⟩

/-- Writes the class files. -/
def generate (c : Configuration) (fs : FileSystem) : Execution :=
  match c.check fs with
  | .error e => .refused "" e fs
  | .ok _ =>
    let o := c.run fs (Disk.sink c.outputDir) { files := fs }
    let events := o.events ++ o.state.events
    match o.result with
    | .error e => ⟨events, "", .error (.run e), o.state.files⟩
    | .ok s => ⟨events ++ [c.completion s], generatedReport c s, .ok (), o.state.files⟩

/-- Writes a plan, in one form or the other. Nothing is written of one that JSON cannot hold. -/
def planReport (json : Bool) (artifacts : List Artifact) : String × Except Failure Unit :=
  if json then
    match renderJson? artifacts with
    | some text => (line text, .ok ())
    | none => ("", .error .notJson)
  else (pathLines artifacts, .ok ())

/-- Lists the class files that a run would write. -/
def plan (json : Bool) (c : Configuration) (fs : FileSystem) : Execution :=
  match c.check fs with
  | .error e => .refused "" e fs
  | .ok _ =>
    let l := c.plan fs
    match l.result with
    | .error e => ⟨l.events, "", .error (.run e), fs⟩
    | .ok artifacts =>
      let (output, result) := planReport json artifacts
      ⟨l.events, output, result, fs⟩

/-- Lists the inputs of a run. -/
def check (s : Settings) (fs : FileSystem) : Execution :=
  match s.configuration.check fs with
  | .error e => .refused (sourceLine s) e fs
  | .ok _ =>
    let header := sourceLine s ++ directoryLines s.configuration
    let l := s.configuration.loadInputs fs
    match l.result with
    | .error e => ⟨l.events, header, .error (.run e), fs⟩
    | .ok loaded => ⟨l.events, header ++ checkReport loaded, .ok (), fs⟩

/-- Does what a command says. -/
def Command.execute (s : Settings) (fs : FileSystem) : Command → Execution
  | .generate => CommandLine.generate s.configuration fs
  | .plan json => CommandLine.plan json s.configuration fs
  | .check => CommandLine.check s fs

/-- What the program leaves behind. -/
structure Output where
  stdout : String := ""
  stderr : String := ""
  code : Nat := 0
  files : FileSystem

/-- The level of the log: what the environment asks for, if it asks for anything,
or else what the configuration says. A word that is no level shows nothing. -/
def logLevel (environment : Option String) (c : Configuration) : LogLevel :=
  match environment with
  | none => c.logLevel
  | some "" => c.logLevel
  | some text => (LogLevel.ofEnvironment? text).getD .off

/-- What an execution leaves behind, with the log at a level. -/
def Execution.toOutput (x : Execution) (level : LogLevel) : Output :=
  let log := logText level x.events
  match x.result with
  | .ok _ => { stdout := x.output, stderr := log, files := x.files }
  | .error e =>
    { stdout := x.output, stderr := log ++ failureLine e.chain, code := e.exitCode,
      files := x.files }

/-- Runs a command with what the user asks for, in the current directory. -/
def runCommand (command : Command) (overrides : Overrides) (environment : Option String)
    (fs : FileSystem) : Output :=
  match Settings.resolve Toml.parse? fs ⟨"."⟩ overrides with
  | .error e =>
    { stderr := failureLine (settingsChain e), code := settingsExitCode e, files := fs }
  | .ok s => (command.execute s fs).toOutput (logLevel environment s.configuration)

/-- Runs the program. -/
def program (words : List RawText) (environment : Option String) (fs : FileSystem) : Output :=
  match parse words with
  | .error e => { stderr := usageText e, code := usageExitCode, files := fs }
  | .ok .showHelp => { stdout := helpText, files := fs }
  | .ok .showVersion => { stdout := versionText, files := fs }
  | .ok (.run command overrides) => runCommand command overrides environment fs

end JavaEntities.CommandLine
