import ScriptDeps.CommandLine.Choice
import ScriptDeps.CommandLine.Word
import ScriptDeps.Settings

/-!
# Reading a command line

In front of the script, or of the name of a command, stand options of the program. From the script
on, every word belongs to the script. Behind the name of a command its options and its script stand
in any order.

The value of an option is looked at when the next thing is recognised, so that of two errors a word
without a place is told of first.
-/

namespace ScriptDeps.CommandLine

/-- Why a command line asks for no work. -/
inductive Stop where
  /-- It is not understood. -/
  | usage (e : UsageError)
  /-- It asks for help on the program or on a command. -/
  | help (topic : Scope)
  /-- It asks for the version. -/
  | version
  /-- It names no script. -/
  | noScript
  deriving DecidableEq, Repr

/-- The options read so far. An option that waits for its value, or has it from the next word, is
not yet among those that were given. -/
structure Reading where
  /-- The options that were given. -/
  choices : Choices
  /-- The last option, with its value if it has been read. -/
  pending : Option (Choice × Option String)
  deriving DecidableEq, Repr

namespace Reading

/-- Nothing has been read. -/
def start : Reading := ⟨.empty, none⟩

/-- The option that the next word may be the value of. -/
def awaiting? (r : Reading) : Option Choice :=
  match r.pending with
  | some (o, none) => some o
  | _ => none

/-- All options read so far. -/
def settle (r : Reading) : Except Stop Choices :=
  match r.pending with
  | none => .ok r.choices
  | some (o, none) => .error (.usage (.noValue o))
  | some (o, some value) => (r.choices.give o value).mapError .usage

/-- Read an option whose value is the next word. -/
def await (r : Reading) (o : Choice) : Except Stop Reading := do
  return ⟨← r.settle, some (o, none)⟩

/-- Read a word as the value of an option. -/
def supply (r : Reading) (o : Choice) (word : String) : Reading :=
  ⟨r.choices, some (o, some word)⟩

/-- Read an option, with its value if it has one. -/
def take (r : Reading) (scope : Scope) (o : Choice) (value : List Char) :
    Except Stop Reading := do
  let choices ← r.settle
  match o with
  | .help => throw (.help scope)
  | .version => throw .version
  | _ => return ⟨← (choices.give o (String.ofList value)).mapError .usage, none⟩

/-- Read an option given by name. -/
def takeLong (r : Reading) (scope : Scope) (o : Choice) (value : Option (List Char)) :
    Except Stop Reading :=
  match o.hasValue, value with
  | true, some value => r.take scope o value
  | true, none => r.await o
  | false, some value => .error (.usage (.surplus (String.ofList value) o))
  | false, none => r.take scope o []

/-- Read a cluster of letters. One that names an option with a value has the rest of the cluster as
the value, an equals sign in front left out. -/
def takeCluster (r : Reading) (scope : Scope) : List Char → Except Stop Reading
  | [] => .ok r
  | c :: rest =>
    match scope.ofLetter? c with
    | none => .error (.usage (.unexpected (String.ofList ['-', c])))
    | some o =>
      if o.hasValue then
        match rest with
        | [] => r.await o
        | '=' :: value => r.take scope o value
        | value => r.take scope o value
      else
        match r.take scope o [] with
        | .ok r => r.takeCluster scope rest
        | .error e => .error e

end Reading

/-! ## Commands -/

/-- The end of a command's words. -/
def finish (r : Reading) (script : Option String) : Except Stop (Choices × String) := do
  let choices ← r.settle
  match script with
  | some script => return (choices, script)
  | none => throw (.usage .noScript)

/-- Read the words of a command behind the separator. -/
def readRest (r : Reading) : Option String → List String → Except Stop (Choices × String)
  | script, [] => finish r script
  | none, word :: words => do
    let choices ← r.settle
    readRest ⟨choices, none⟩ (some word) words
  | some _, word :: _ => .error (.usage (.unexpected word))

/-- Read the words of a command: its options and its script. -/
def readCommand (scope : Scope) (r : Reading) (script : Option String) :
    List String → Except Stop (Choices × String)
  | [] => finish r script
  | word :: words =>
    match Word.ofText word with
    | .separator => readRest r script words
    | .long name value =>
      match scope.ofName? name with
      | some o => do readCommand scope (← r.takeLong scope o value) script words
      | none => .error (.usage (.unexpected (String.ofList ('-' :: '-' :: name))))
    | .cluster letters => do readCommand scope (← r.takeCluster scope letters) script words
    | .plain =>
      match r.awaiting?, script with
      | some o, _ => readCommand scope (r.supply o word) script words
      | none, some _ => .error (.usage (.unexpected word))
      | none, none => do readCommand scope ⟨← r.settle, none⟩ (some word) words

/-! ## The program -/

/-- What a user wants done. -/
inductive Task where
  /-- Run a script with arguments. -/
  | run (script : String) (arguments : List String)
  /-- Report on a script in a format, in a file if one is given. -/
  | check (script : String) (format : Report.Format) (output : Option String)
  /-- Add a block to a script. -/
  | add (script : String)
  deriving DecidableEq, Repr

/-- What a command line asks for. -/
structure Invocation where
  /-- Details are shown. -/
  verbose : Bool
  /-- The choices of the user. -/
  settings : Settings
  /-- What is done. -/
  task : Task
  deriving DecidableEq, Repr

/-- Do something with the given options. -/
def Choices.invoke (c : Choices) (task : Task) : Invocation :=
  ⟨c.verbose, .choose c.pythonVersion c.python none, task⟩

/-- Commands by name. -/
def commands : List (String × Scope) := [("check", .check), ("add", .add), ("upgrade", .add)]

/-- The command that shows help. -/
def helpCommand : String := "help"

/-- What a command does with a script. -/
def Scope.task (scope : Scope) (c : Choices) (script : String) : Task :=
  match scope with
  | .program => .run script []
  | .check => .check script (c.format.getD .text) c.output
  | .add => .add script

/-- Read the words behind the command that shows help: at most the name of one command, which may be
the command that shows help. -/
def readHelp : List String → Stop
  | [] => .help .program
  | word :: words =>
    match (if word = helpCommand then some .program else commands.lookup word), words with
    | none, _ => .usage (.noCommand word)
    | some topic, [] => .help topic
    | some _, next :: _ => .usage (.noCommand next)

/-- Run a script. -/
def runScript (r : Reading) (script : String) (arguments : List String) :
    Except Stop Invocation := do
  return (← r.settle).invoke (.run script arguments)

/-- Read the words behind a separator in front of the script. -/
def readScript (r : Reading) : List String → Except Stop Invocation
  | [] => do
    let _ ← r.settle
    throw .noScript
  | script :: arguments => runScript r script arguments

/-- Read the words behind the name of a command. -/
def readUnder (r : Reading) (scope : Scope) (words : List String) : Except Stop Invocation := do
  let (command, script) ← readCommand scope .start none words
  let choices := command.under (← r.settle)
  return choices.invoke (scope.task choices script)

/-- Read a word that names no option: the value of an option, a command or the script. -/
def readPlain (read : Reading → Except Stop Invocation) (r : Reading) (word : String)
    (words : List String) : Except Stop Invocation :=
  match r.awaiting? with
  | some o => read (r.supply o word)
  | none => runScript r word words

/-- Read the words of a command line behind the options of the program read so far. -/
def readProgram (r : Reading) : List String → Except Stop Invocation
  | [] => readScript r []
  | word :: words =>
    let plain := readPlain (fun r => readProgram r words) r word words
    if r.awaiting?.isNone && word == helpCommand then .error (readHelp words)
    else
      match (if r.awaiting?.isNone then commands.lookup word else none) with
      | some scope => readUnder r scope words
      | none =>
        match Word.ofText word with
        | .separator => readScript r words
        | .long name value =>
          match Scope.program.ofName? name with
          | some o => do readProgram (← r.takeLong .program o value) words
          | none => plain
        | .cluster letters =>
          if letters.all (Scope.program.ofLetter? · |>.isSome) then do
            readProgram (← r.takeCluster .program letters) words
          else plain
        | .plain => plain

/-- What a command line asks for. -/
def read (words : List String) : Except Stop Invocation := readProgram .start words

end ScriptDeps.CommandLine
