import JavaEntities.CommandLine.Option

/-!
# Reading a command line

The words of a command line are read once from left to right. A word is a command,
an option with or without a value attached, the value of the option before it, or
`--`, after which no word is an option. An option that waits for its value is
settled only when the next option is met or the words end, so an unknown word
after it is the error even if its value is none.

`parse` gives what the program is to do, or the first thing that is wrong.

Mirrors how the words are read into `Cli`, which the program leaves to a library:
what counts as a fault, and which of several is reported, is as that library has
it.
-/

namespace JavaEntities.CommandLine

/-- What a command does, with its own switches. -/
inductive Command
  | generate
  | plan (json : Bool)
  | check
  deriving DecidableEq, Repr, Inhabited

/-- What the program is to do. -/
inductive Request
  | run (command : Command) (overrides : Overrides)
  | showHelp
  | showVersion
  deriving DecidableEq, Repr, Inhabited

/-! ## Words -/

/-- The shape of a word. -/
inductive Word
  /-- The word `--`. -/
  | separator
  /-- A long name, with what follows `=`. -/
  | long (name : RawText) (attached : Option RawText)
  /-- A letter, with what follows it. -/
  | short (letter : Char) (attached : Option RawText)
  /-- A hyphen with bytes behind it that begin with no letter. -/
  | illegible (rest : RawText)
  /-- Any other word. -/
  | plain
  deriving DecidableEq, Repr, Inhabited

namespace Word

/-- The byte that begins an option. -/
def hyphen : UInt8 := 0x2D

/-- The byte between an option and its value. -/
def equals : UInt8 := 0x3D

/-- The shape of a word that starts with two hyphens. -/
def ofLong (rest : List UInt8) : Word :=
  let name := RawText.ofList (rest.takeWhile (· ≠ equals))
  match rest.dropWhile (· ≠ equals) with
  | [] => long name none
  | _ :: value => long name (some (RawText.ofList value))

/-- What is attached to a letter, with or without the byte that may stand between. -/
def attached : List UInt8 → Option RawText
  | [] => none
  | b :: value => some (RawText.ofList (if b = equals then value else b :: value))

/-- The shape of a word that starts with one hyphen. -/
def ofShort (rest : List UInt8) : Word :=
  match RawText.pieces 0 rest with
  | [] => plain
  | first :: _ =>
    match (RawText.ofList first).toString?.map String.toList with
    | some [letter] => short letter (attached (rest.drop first.length))
    | _ => illegible (RawText.ofList rest)

/-- The shape of a word. -/
def ofRaw (word : RawText) : Word :=
  match word.toList with
  | a :: b :: rest =>
    if a ≠ hyphen then plain
    else if b ≠ hyphen then ofShort (b :: rest)
    else if rest = [] then separator
    else ofLong rest
  | _ => plain

end Word

/-! ## Options that have been given -/

/-- The options given in one place: before the command, or after it. -/
structure Given where
  overrides : Overrides := {}
  json : Bool := false
  deriving DecidableEq, Repr, Inhabited

namespace Given

/-- Whether an option has its value. -/
def has (g : Given) : ValueOption → Bool
  | .config => g.overrides.config.isSome
  | .inputDir => g.overrides.inputDir.isSome
  | .outputDir => g.overrides.outputDir.isSome
  | .logLevel => g.overrides.logLevel.isSome

/-- The path that an option names. -/
def path (o : ValueOption) (value : RawText) : Except UsageError Path :=
  if value = "" then .error (.missingValue o) else .ok ⟨value⟩

/-- The level that an option names. -/
def level (o : ValueOption) (value : RawText) : Except UsageError LogLevel :=
  match value.toString? with
  | none => .error .notText
  | some text =>
    match LogLevel.parse text with
    | .error e => .error (.invalidValue o text e)
    | .ok l => .ok l

/-- The options with the value of one more. -/
def give (g : Given) (o : ValueOption) (value : RawText) : Except UsageError Given := do
  if g.has o then .error (.repeated (.value o))
  let asked := g.overrides
  match o with
  | .config => return { g with overrides := { asked with config := ← path o value } }
  | .inputDir => return { g with overrides := { asked with inputDir := ← path o value } }
  | .outputDir => return { g with overrides := { asked with outputDir := ← path o value } }
  | .logLevel => return { g with overrides := { asked with logLevel := ← level o value } }

/-- The options with one more switch. Switches that end the reading change nothing. -/
def turnOn (g : Given) (s : Switch) : Except UsageError Given :=
  match s with
  | .skipUnreadable =>
    if g.overrides.skipUnreadable then .error (.repeated (.switch s))
    else .ok { g with overrides := { g.overrides with skipUnreadable := true } }
  | .json => if g.json then .error (.repeated (.switch s)) else .ok { g with json := true }
  | _ => .ok g

end Given

/-- An option on its way to its value. -/
inductive Pending
  | nothing
  | awaiting (o : ValueOption)
  | filled (o : ValueOption) (value : RawText)
  deriving DecidableEq, Repr, Inhabited

/-- How far the words of one place have been read. -/
structure Progress where
  given : Given := {}
  pending : Pending := .nothing
  deriving DecidableEq, Repr, Inhabited

namespace Progress

/-- Whether the next plain word is a value. -/
def awaits (p : Progress) : Bool :=
  match p.pending with
  | .awaiting _ => true
  | _ => false

/-- The options after the pending one is settled. -/
def settle (p : Progress) : Except UsageError Given :=
  match p.pending with
  | .nothing => .ok p.given
  | .awaiting o => .error (.missingValue o)
  | .filled o value => p.given.give o value

end Progress

/-! ## Reading -/

/-- What a word means for the words after it. -/
inductive Meaning
  /-- The next word follows. -/
  | next (p : Progress)
  /-- No option follows. -/
  | noMoreOptions
  /-- The program is to show something about itself. -/
  | inform (r : Request)
  /-- The word is neither an option nor a value. -/
  | foreign
  deriving Repr, Inhabited

namespace Progress

/-- Reads an option, with the value that is attached to it. -/
def take (p : Progress) (o : CommandOption) (attached : Option RawText) :
    Except UsageError Meaning :=
  match o, attached with
  | .value o, none => do return .next ⟨← p.settle, .awaiting o⟩
  | .value o, some value => do return .next ⟨← (← p.settle).give o value, .nothing⟩
  | .switch s, some value => .error (.unexpectedValue s value)
  | .switch .help, none => do let _ ← p.settle; return .inform .showHelp
  | .switch .version, none => do let _ ← p.settle; return .inform .showVersion
  | .switch s, none => do return .next ⟨← (← p.settle).turnOn s, .nothing⟩

/-- Reads one word after a command, or before any. -/
def read (p : Progress) (command : Option CommandName) (word : RawText) :
    Except UsageError Meaning :=
  match Word.ofRaw word with
  | .separator => .ok .noMoreOptions
  | .long name attached =>
    match CommandOption.ofName? command name with
    | none => .error (.unexpectedWord ("--" ++ name))
    | some o => p.take o attached
  | .short letter attached =>
    match CommandOption.ofLetter? command letter with
    | none => .error (.unexpectedWord ("-" ++ letter.toString))
    | some (.value o) => p.take (.value o) attached
    | some (.switch s) => p.take (.switch s) none
  | .illegible rest => .error (.unexpectedWord ("-" ++ rest))
  | .plain =>
    match p.pending with
    | .awaiting o => .ok (.next { p with pending := .filled o word })
    | _ => .ok .foreign

end Progress

/-- The request for a command, from the options before it and after it. -/
def Request.ofCommand (name : CommandName) (before after : Given) : Request :=
  let command : Command := match name with
    | .generate => .generate
    | .plan => .plan after.json
    | .check => .check
  .run command (after.overrides.orElse before.overrides)

/-- Reads the words after a command. The options before it are settled last. -/
def parseCommand (before : Progress) (name : CommandName) :
    Progress → List RawText → Except UsageError Request
  | p, [] => do
    let after ← p.settle
    return .ofCommand name (← before.settle) after
  | p, word :: rest =>
    match p.read (some name) word with
    | .error e => .error e
    | .ok (.next p) => parseCommand before name p rest
    | .ok (.inform r) => .ok r
    | .ok .foreign => .error (.unexpectedWord word)
    | .ok .noMoreOptions =>
      match rest with
      | word :: _ => .error (.unexpectedWord word)
      | [] => do
        let after ← p.settle
        return .ofCommand name (← before.settle) after

/-- The word for the command that explains others. -/
def helpWord : String := "help"

/-- Whether a word is a command. -/
def isCommandWord (word : RawText) : Bool :=
  word = helpWord || (CommandName.ofWord? word).isSome

/-- Reads the words after the help command: at most one command. -/
def parseHelp : List RawText → Except UsageError Request
  | [] => .ok .showHelp
  | word :: rest =>
    if isCommandWord word then
      match rest with
      | [] => .ok .showHelp
      | extra :: _ => .error (.unknownCommand extra)
    else .error (.unknownCommand word)

/-- The request of a command line without a command. -/
def withoutCommand (p : Progress) : Except UsageError Request := do
  return .run .generate (← p.settle).overrides

/-- Reads words up to a command and then those after it. -/
def parseFrom : Progress → List RawText → Except UsageError Request
  | p, [] => withoutCommand p
  | p, word :: rest =>
    if !p.awaits && word = helpWord then parseHelp rest
    else
      match if p.awaits then none else CommandName.ofWord? word with
      | some name => parseCommand p name {} rest
      | none =>
        match p.read none word with
        | .error e => .error e
        | .ok (.next p) => parseFrom p rest
        | .ok (.inform r) => .ok r
        | .ok .foreign => .error (.unknownCommand word)
        | .ok .noMoreOptions =>
          match rest with
          | [] => withoutCommand p
          | word :: _ =>
            .error (if isCommandWord word then .unexpectedWord word else .unknownCommand word)

/-- What a command line asks for. -/
def parse (words : List RawText) : Except UsageError Request :=
  parseFrom {} words

end JavaEntities.CommandLine
