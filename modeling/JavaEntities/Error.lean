import JavaEntities.Path

/-!
# Errors

Every way in which a run can fail, as its cause. `Error.message` is the wording,
`Error.exitCode` what the program exits with, and `Error.causeMessage` the cause
of an input or output error on its own.

Mirrors `GenError` with `exit_code`. The program has texts for the faults of a
configuration; here each fault is a case with its data, and
`ConfigProblem.message` the text. Of the causes that the operating system may give
only those are listed that the operations on a tree can meet.
-/

namespace JavaEntities

/-- What the operating system refuses. -/
inductive OsError
  | notFound
  | busy
  | alreadyExists
  | notDirectory
  | isDirectory
  | invalidArgument
  | nameTooLong
  | notEmpty
  | linkLoop
  deriving DecidableEq, Repr, Inhabited

namespace OsError

/-- The number of the error. -/
def number : OsError → Nat
  | notFound => 2
  | busy => 16
  | alreadyExists => 17
  | notDirectory => 20
  | isDirectory => 21
  | invalidArgument => 22
  | nameTooLong => 36
  | notEmpty => 39
  | linkLoop => 40

/-- The description of the error. -/
def description : OsError → String
  | notFound => "No such file or directory"
  | busy => "Device or resource busy"
  | alreadyExists => "File exists"
  | notDirectory => "Not a directory"
  | isDirectory => "Is a directory"
  | invalidArgument => "Invalid argument"
  | nameTooLong => "File name too long"
  | notEmpty => "Directory not empty"
  | linkLoop => "Too many levels of symbolic links"

end OsError

/-- Why an operation on files failed. -/
inductive IoCause
  /-- The operating system refused. -/
  | os (e : OsError)
  /-- The path holds the character that ends a path for the operating system. -/
  | nulInPath
  /-- The empty path stands for no directory. -/
  | emptyPath
  /-- The file is not well-formed text. -/
  | notText
  /-- A destination of another kind refused. -/
  | refused (reason : String)
  deriving DecidableEq, Repr, Inhabited

/-- The wording of a cause. -/
def IoCause.message : IoCause → String
  | os e => e.description ++ " (os error " ++ toString e.number ++ ")"
  | nulInPath => "file name contained an unexpected NUL byte"
  | emptyPath => "cannot make an empty path absolute"
  | notText => "stream did not contain valid UTF-8"
  | refused reason => reason

/-- Which of the two extensions of a configuration is meant. -/
inductive ExtensionKey
  | input
  | output
  deriving DecidableEq, Repr, Inhabited

/-- The key of an extension in a configuration. -/
def ExtensionKey.name : ExtensionKey → String
  | input => "input_extension"
  | output => "output_extension"

/-- What is wrong with a configuration whose text is in order. -/
inductive ConfigProblem
  | unreadable (file : Path) (cause : IoCause)
  | emptyExtension (key : ExtensionKey)
  | compoundExtension (key : ExtensionKey) (extension : String)
  | emptyOutputDir
  | unresolvable (dir : Path) (cause : IoCause)
  | outputHoldsInput (output input : Path)
  | unknownLogLevel (lower : String)
  | other (reason : String)
  deriving DecidableEq, Repr, Inhabited

/-- The wording of a problem. -/
def ConfigProblem.message : ConfigProblem → String
  | unreadable file cause => "failed to read " ++ file.display ++ ": " ++ cause.message
  | emptyExtension key => key.name ++ " must not be empty"
  | compoundExtension key extension =>
    key.name ++ " must be a bare extension without dots or separators: " ++ extension
  | emptyOutputDir => "output_dir must not be empty"
  | unresolvable dir cause => "cannot resolve " ++ dir.display ++ ": " ++ cause.message
  | outputHoldsInput output input =>
    "output_dir " ++ output.display ++ " would remove input_dir " ++ input.display
  | unknownLogLevel lower => "unknown log level: " ++ lower
  | other reason => reason

/-- What is wrong with the text of a configuration. Only the kind of fault and the reason
of a mismatch are kept. Left out are the wording of a syntax error, and of a mismatch the
key, the line and column and the excerpt of the text that a user is shown around the reason. -/
inductive ConfigFault
  /-- The text is no document of its format. -/
  | malformed
  /-- The document does not describe a configuration. -/
  | mismatch (reason : String)
  deriving DecidableEq, Repr, Inhabited

/-- The wording of a fault, as far as it is kept. -/
def ConfigFault.message : ConfigFault → String
  | malformed => "the text is not well formed"
  | mismatch reason => reason

/-- Why a run failed. -/
inductive Error
  | inputRead (path : Path) (cause : IoCause)
  | invalidIdentifier (path : Path)
  | discovery (dir : Path) (cause : IoCause)
  | outputWrite (path : Path) (cause : IoCause)
  | configParse (fault : ConfigFault)
  | config (problem : ConfigProblem)
  deriving DecidableEq, Repr, Inhabited

namespace Error

/-- What the program exits with. -/
def exitCode : Error → Nat
  | inputRead .. => 2
  | invalidIdentifier .. => 3
  | discovery .. => 4
  | outputWrite .. => 5
  | configParse .. => 6
  | config .. => 7

/-- The wording of an error. -/
def message : Error → String
  | inputRead path cause => "failed to read input " ++ path.display ++ ": " ++ cause.message
  | invalidIdentifier path => "cannot derive a schema identifier from " ++ path.display
  | discovery dir cause => "failed to scan input directory " ++ dir.display ++ ": " ++ cause.message
  | outputWrite path cause => "failed to write output " ++ path.display ++ ": " ++ cause.message
  | configParse fault => "invalid configuration file: " ++ fault.message
  | config problem => "configuration error: " ++ problem.message

/-- The cause of an error that has one of its own. -/
def causeMessage : Error → Option String
  | inputRead _ cause => some cause.message
  | discovery _ cause => some cause.message
  | outputWrite _ cause => some cause.message
  | configParse fault => some fault.message
  | invalidIdentifier _ => none
  | config _ => none

end Error

end JavaEntities
