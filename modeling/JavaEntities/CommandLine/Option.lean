import JavaEntities.Settings

/-!
# Commands and options

The commands of the program and the options that each of them knows. An option
with a value may be given at most once before the command and once after it; what
stands after the command counts. A switch has no value.

Mirrors the declarations of `Cli`, `Overrides` and `Commands`. Of a usage error
only the first line is kept.
-/

namespace JavaEntities.CommandLine

/-- The commands by name. -/
inductive CommandName
  | generate
  | plan
  | check
  deriving DecidableEq, Repr, Inhabited

namespace CommandName

/-- The word for a command. -/
def word : CommandName → String
  | generate => "generate"
  | plan => "plan"
  | check => "check"

/-- The command that a word names. -/
def ofWord? (word : RawText) : Option CommandName :=
  [generate, plan, check].find? fun c => RawText.ofString c.word = word

end CommandName

/-- The options with a value. -/
inductive ValueOption
  | config
  | inputDir
  | outputDir
  | logLevel
  deriving DecidableEq, Repr, Inhabited

namespace ValueOption

/-- Every option with a value. -/
def all : List ValueOption := [config, inputDir, outputDir, logLevel]

/-- The long name of an option. -/
def name : ValueOption → String
  | config => "config"
  | inputDir => "input-dir"
  | outputDir => "output-dir"
  | logLevel => "log-level"

/-- The letter of an option. -/
def letter : ValueOption → Char
  | config => 'c'
  | inputDir => 'i'
  | outputDir => 'o'
  | logLevel => 'l'

/-- The word that stands for the value in messages. -/
def placeholder : ValueOption → String
  | config => "CONFIG"
  | inputDir => "INPUT_DIR"
  | outputDir => "OUTPUT_DIR"
  | logLevel => "LOG_LEVEL"

end ValueOption

/-- The options without a value. -/
inductive Switch
  | skipUnreadable
  | json
  | help
  | version
  deriving DecidableEq, Repr, Inhabited

namespace Switch

/-- Every switch. -/
def all : List Switch := [skipUnreadable, json, help, version]

/-- The long name of a switch. -/
def name : Switch → String
  | skipUnreadable => "skip-unreadable"
  | json => "json"
  | help => "help"
  | version => "version"

/-- The letter of a switch that has one. -/
def letter? : Switch → Option Char
  | help => some 'h'
  | version => some 'V'
  | _ => none

/-- Whether a switch is known after a command, or before any. -/
def knownAfter : Option CommandName → Switch → Bool
  | _, skipUnreadable => true
  | _, help => true
  | command, json => command = some .plan
  | command, version => command = none

end Switch

/-- An option of either kind. -/
inductive CommandOption
  | value (o : ValueOption)
  | switch (s : Switch)
  deriving DecidableEq, Repr, Inhabited

namespace CommandOption

/-- The options that are known after a command, or before any. -/
def known (command : Option CommandName) : List CommandOption :=
  ValueOption.all.map value ++ (Switch.all.filter (Switch.knownAfter command)).map switch

/-- The long name of an option. -/
def name : CommandOption → String
  | value o => o.name
  | switch s => s.name

/-- The letter of an option that has one. -/
def letter? : CommandOption → Option Char
  | value o => some o.letter
  | switch s => s.letter?

/-- An option as messages show it. -/
def display : CommandOption → String
  | value o => "--" ++ o.name ++ " <" ++ o.placeholder ++ ">"
  | switch s => "--" ++ s.name

/-- The known option with a long name. -/
def ofName? (command : Option CommandName) (name : RawText) : Option CommandOption :=
  (known command).find? fun o => RawText.ofString o.name = name

/-- The known option with a letter. -/
def ofLetter? (command : Option CommandName) (letter : Char) : Option CommandOption :=
  (known command).find? fun o => o.letter? = some letter

end CommandOption

/-- What is wrong with the words of a command line. -/
inductive UsageError
  | unexpectedWord (word : RawText)
  | unknownCommand (word : RawText)
  | missingValue (o : ValueOption)
  | repeated (o : CommandOption)
  | unexpectedValue (s : Switch) (value : RawText)
  | invalidValue (o : ValueOption) (value : String) (cause : Error)
  /-- The value of an option that takes a text is none. -/
  | notText
  deriving DecidableEq, Repr, Inhabited

/-- The wording of a usage error. -/
def UsageError.message : UsageError → String
  | unexpectedWord word => "unexpected argument '" ++ word.display ++ "' found"
  | unknownCommand word => "unrecognized subcommand '" ++ word.display ++ "'"
  | missingValue o =>
    "a value is required for '" ++ (CommandOption.value o).display ++ "' but none was supplied"
  | repeated o => "the argument '" ++ o.display ++ "' cannot be used multiple times"
  | unexpectedValue s value =>
    "unexpected value '" ++ value.display ++ "' for '" ++ (CommandOption.switch s).display
      ++ "' found; no more were expected"
  | invalidValue o value cause =>
    "invalid value '" ++ value ++ "' for '" ++ (CommandOption.value o).display ++ "': "
      ++ cause.message
  | notText => "invalid UTF-8 was detected in one or more arguments"

end JavaEntities.CommandLine
