/-!
# Text without terminal controls

A text that repeats what a user typed must not steer the terminal. `plain` drops
control characters, other than white space, and the sequences that start with an
escape character. White space inside a sequence ends it and stays, except in a
sequence that holds a text of its own.

Mirrors how usage errors are printed; other messages show a text as it is.
-/

namespace JavaEntities.Text

/-- Where a character stands. -/
inductive TerminalState
  /-- Outside every sequence. -/
  | ground
  /-- After an escape character. -/
  | escape
  /-- In a short sequence, after its first blank or mark. -/
  | short
  /-- In a sequence of parameters, up to a letter. -/
  | parameters
  /-- In a command that a bell may end. -/
  | command
  /-- In a text that only a further escape character ends. -/
  | body
  deriving DecidableEq, Repr

/-- Whether a control character is white space. -/
def isShownControl (c : Char) : Bool :=
  c = '\t' || c = '\n' || c = '\x0c' || c = '\r'

/-- Whether a character is a control. -/
def isControl (c : Char) : Bool :=
  c.toNat < 32 || c = '\x7f'

/-- The state after a character that has not been shown. -/
def TerminalState.after (s : TerminalState) (c : Char) : TerminalState :=
  if c = '\x1b' then escape
  else if c = '\x18' || c = '\x1a' then ground
  else
    match s with
    | ground => ground
    | escape =>
      if isControl c then escape
      else if c.toNat < 0x30 then short
      else if c = '[' then parameters
      else if c = ']' then command
      else if c = 'P' || c = 'X' || c = '^' || c = '_' then body
      else ground
    | short => if isControl c || c.toNat < 0x30 then short else ground
    | parameters => if isControl c || c.toNat < 0x40 then parameters else ground
    | command => if c = '\x07' then ground else command
    | body => body

/-- Whether a character is shown. -/
def TerminalState.shows (s : TerminalState) (c : Char) : Bool :=
  match s with
  | ground => !isControl c || isShownControl c
  | command => false
  | body => false
  | _ => isShownControl c

/-- The characters that are shown, from a state on. -/
def shown : TerminalState → List Char → List Char
  | _, [] => []
  | s, c :: rest => if s.shows c then c :: shown .ground rest else shown (s.after c) rest

/-- A text without control characters and sequences. -/
def plain (s : String) : String :=
  String.ofList (shown .ground s.toList)

end JavaEntities.Text
