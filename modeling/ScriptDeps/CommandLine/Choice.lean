import ScriptDeps.Report

/-!
# Options of a command line

Each option has a name, and some have a letter. An option with a value takes it from the next word
or from its own. No option is given twice.
-/

namespace ScriptDeps.CommandLine

/-- An option. -/
inductive Choice where
  /-- Show details. -/
  | verbose
  /-- The interpreter to ask. -/
  | python
  /-- The versions of the interpreter that the block asks for. -/
  | pythonVersion
  /-- The format of the report. -/
  | format
  /-- The file of the report. -/
  | output
  /-- Show help. -/
  | help
  /-- Show the version. -/
  | version
  deriving DecidableEq, Repr

/-- What a part of a command line is for. -/
inductive Scope where
  /-- The program, in front of a command. -/
  | program
  /-- The command that checks a script. -/
  | check
  /-- The command that adds a block. -/
  | add
  deriving DecidableEq, Repr

namespace Choice

/-- The name of an option. -/
def name : Choice → String
  | verbose => "verbose"
  | python => "python"
  | pythonVersion => "python-version"
  | format => "format"
  | output => "output"
  | help => "help"
  | version => "version"

/-- The letter of an option, if it has one. -/
def letter? : Choice → Option Char
  | verbose => some 'v'
  | python => none
  | pythonVersion => none
  | format => some 'f'
  | output => some 'o'
  | help => some 'h'
  | version => some 'V'

/-- What the value of an option is called, if it has a value. -/
def valueName? : Choice → Option String
  | verbose => none
  | python => some "PYTHON"
  | pythonVersion => some "PYTHON_VERSION"
  | format => some "FORMAT"
  | output => some "OUTPUT"
  | help => none
  | version => none

/-- The option has a value. -/
def hasValue (o : Choice) : Bool := o.valueName?.isSome

/-- An option as it is shown to a user. -/
def shown (o : Choice) : String :=
  match o.valueName? with
  | some value => s!"--{o.name} <{value}>"
  | none => s!"--{o.name}"

end Choice

namespace Scope

/-- The options of a part of a command line. -/
def choices : Scope → List Choice
  | program => [.verbose, .python, .help, .version]
  | check => [.pythonVersion, .format, .output, .verbose, .python, .help]
  | add => [.pythonVersion, .verbose, .python, .help]

/-- The option of a name. -/
def ofName? (s : Scope) (name : List Char) : Option Choice :=
  s.choices.find? (·.name.toList == name)

/-- The option of a letter. -/
def ofLetter? (s : Scope) (c : Char) : Option Choice := s.choices.find? (·.letter? == some c)

end Scope

/-- Why a command line is not understood. -/
inductive UsageError where
  /-- A word has no place. -/
  | unexpected (word : String)
  /-- An option without a value has one. -/
  | surplus (value : String) (o : Choice)
  /-- An option lacks its value. -/
  | noValue (o : Choice)
  /-- An option is given twice. -/
  | repeated (o : Choice)
  /-- The value of an option is none of those it can have. -/
  | badValue (value : String) (o : Choice)
  /-- The script is missing. -/
  | noScript
  /-- There is no such command. -/
  | noCommand (word : String)
  deriving DecidableEq, Repr

/-- What a usage error says. -/
def UsageError.message : UsageError → String
  | unexpected word => s!"unexpected argument '{word}' found"
  | surplus value o =>
    s!"unexpected value '{value}' for '{o.shown}' found; no more were expected"
  | noValue o => s!"a value is required for '{o.shown}' but none was supplied"
  | repeated o => s!"the argument '{o.shown}' cannot be used multiple times"
  | badValue value o => s!"invalid value '{value}' for '{o.shown}'"
  | noScript => "the following required arguments were not provided:\n  <SCRIPT>"
  | noCommand word => s!"unrecognized subcommand '{word}'"

/-- The options that were given, with their values. -/
structure Choices where
  /-- Details are shown. -/
  verbose : Bool
  /-- The interpreter to ask. -/
  python : Option String
  /-- The versions of the interpreter that the block asks for. -/
  pythonVersion : Option String
  /-- The format of the report. -/
  format : Option Report.Format
  /-- The file of the report. -/
  output : Option String
  deriving DecidableEq, Repr

namespace Choices

/-- No option was given. -/
def empty : Choices := ⟨false, none, none, none, none⟩

/-- The option was given. -/
def has (c : Choices) : Choice → Bool
  | .verbose => c.verbose
  | .python => c.python.isSome
  | .pythonVersion => c.pythonVersion.isSome
  | .format => c.format.isSome
  | .output => c.output.isSome
  | .help => false
  | .version => false

/-- Give an option a value, whether or not it had one. -/
def set (c : Choices) (o : Choice) (value : String) : Except UsageError Choices :=
  match o with
  | .verbose => .ok { c with verbose := true }
  | .python => if value = "" then .error (.noValue o) else .ok { c with python := value }
  | .pythonVersion => .ok { c with pythonVersion := value }
  | .format =>
    if value = "" then .error (.noValue o)
    else
      match Report.Format.ofWord? value with
      | some format => .ok { c with format }
      | none => .error (.badValue value o)
  | .output => if value = "" then .error (.noValue o) else .ok { c with output := value }
  | .help => .ok c
  | .version => .ok c

/-- Give an option a value for the first time. -/
def give (c : Choices) (o : Choice) (value : String) : Except UsageError Choices :=
  if c.has o then .error (.repeated o) else c.set o value

/-- The options given to a command and in front of it; those of the command count first. -/
def under (command program : Choices) : Choices :=
  { command with
    verbose := command.verbose || program.verbose
    python := command.python <|> program.python }

end Choices

end ScriptDeps.CommandLine
