/-!
# Messages

What the program reports while it works, who receives it, and how a console shows it. Some messages
are shown only on request, and warnings and errors go to the error stream.
-/

namespace ScriptDeps

/-- How much a message matters. -/
inductive Level where
  /-- A detail. -/
  | verbose
  /-- A plain statement. -/
  | info
  /-- Something went well. -/
  | success
  /-- Something looks wrong. -/
  | warning
  /-- A program is started. -/
  | command
  /-- Something went wrong. -/
  | error
  deriving DecidableEq, Repr

/-- A message with its level. -/
structure Message where
  /-- How much it matters. -/
  level : Level
  /-- What it says. -/
  text : String
  deriving DecidableEq, Repr

namespace Level

/-- The code that switches a color on. -/
def color? : Level → Option String
  | verbose => some "\x1b[2m"
  | info => none
  | success => some "\x1b[92m"
  | warning => some "\x1b[93m"
  | command => some "\x1b[96m"
  | error => some "\x1b[91m"

/-- What is written in front of a message. -/
def lead : Level → String
  | warning => "Warning: "
  | command => "🚀 Running: "
  | _ => ""

/-- A level that is shown only on request. -/
def onRequest : Level → Bool
  | verbose | command => true
  | _ => false

/-- A level that goes to the error stream. -/
def toErrorStream : Level → Bool
  | warning | error => true
  | _ => false

end Level

/-- The code that switches colors off. -/
def resetColor : String := "\x1b[0m"

/-- How a console shows messages. -/
structure Console where
  /-- Messages on request are shown. -/
  verbose : Bool
  /-- Lines are colored. -/
  useColors : Bool
  deriving DecidableEq, Repr

/-- The line that shows a message, in colors or not. -/
def Message.line (m : Message) (useColors : Bool) : String :=
  let text := m.level.lead ++ m.text
  match m.level.color? with
  | some color => if useColors then color ++ text ++ resetColor else text
  | none => text

/-- The line that a console shows for a message, none if it holds the message back. -/
def Console.line? (c : Console) (m : Message) : Option String :=
  if m.level.onRequest && !c.verbose then none else some (m.line c.useColors)

/-- A receiver of messages, which takes some of them and lets all others pass. -/
structure Sink where
  /-- The message is taken. -/
  takes : Message → Bool

/-- The receiver that takes every message. -/
def Sink.memory : Sink := ⟨fun _ => true⟩

/-- A console takes the messages that it shows. -/
def Console.sink (c : Console) : Sink := ⟨fun m => (c.line? m).isSome⟩

instance : Coe Console Sink := ⟨Console.sink⟩

/-- A terminal of a given kind shows colors: it is one, it can, and nobody objects. -/
def showsColors (noColor : Bool) (kind : Option String) (isTerminal : Bool) : Bool :=
  !noColor && isTerminal && !(kind == none || kind == some "" || kind == some "dumb")

/-- The texts of the messages of a level. -/
def textsOf (level : Level) (log : List Message) : List String :=
  (log.filter (·.level == level)).map (·.text)

/-- A text stands somewhere in another. -/
def occursIn (needle : List Char) : List Char → Bool
  | [] => needle.isEmpty
  | c :: s => needle.isPrefixOf (c :: s) || occursIn needle s

/-- Some message of a log holds a text. -/
def mentions (needle : String) (log : List Message) : Bool :=
  log.any fun m => occursIn needle.toList m.text.toList

end ScriptDeps
