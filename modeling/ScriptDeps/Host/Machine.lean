import ScriptDeps.Host.FileSystem
import ScriptDeps.Message
import ScriptDeps.Text.Utf8

/-!
# Machines

A machine is what a command works on: files, programs, the way to other computers, and the record
of what happened. Everything a command does outside itself is a step of its machine.
-/

namespace ScriptDeps

/-- A note about a download, which only a terminal shows. -/
inductive Progress where
  /-- The note is put up. -/
  | begun (text : String)
  /-- The note is taken away. -/
  | cleared
  /-- The note says how the download ended. -/
  | ended (text : String)
  deriving DecidableEq, Repr

/-- Something that a user sees happen. -/
inductive Event where
  /-- A message that was taken. -/
  | message (m : Message)
  /-- A note about a download. -/
  | progress (p : Progress)
  /-- A text on the output. -/
  | output (text : String)
  /-- A text on the error stream. -/
  | complaint (text : String)
  /-- What a started program writes. -/
  | program (stdout stderr : List UInt8)
  deriving DecidableEq, Repr

/-- What happens when messages are reported to a receiver: it takes some of them. -/
def Sink.events (sink : Sink) (messages : List Message) : List Event :=
  (messages.filter sink.takes).map .message

/-- What another computer answers to a request. -/
structure Response where
  /-- The status of the answer. -/
  status : Nat
  /-- What was asked for. -/
  body : List UInt8
  deriving DecidableEq, Repr

/-- A start of a program. -/
structure Call where
  /-- The place of the program. -/
  program : Path
  /-- What it was given. -/
  arguments : List String
  deriving DecidableEq, Repr

/-- What a command works on. -/
structure Machine where
  /-- The files. -/
  files : FileSystem
  /-- Where paths begin that do not begin at the root. -/
  directory : Path
  /-- Where programs are looked for. -/
  searchPath : List Path
  /-- What is answered to a request for an address. -/
  network : String → Except SystemError Response
  /-- A path at which there is no file yet, for a copy of a remote script. -/
  copyPath : String
  /-- The time, as it is written in reports. -/
  clock : String
  /-- What happened, in order. -/
  events : List Event
  /-- The programs that were started, in order. -/
  calls : List Call

namespace Machine

/-- A step of a machine. -/
abbrev Step (α : Type) := StateM Machine α

/-- Record an event. -/
def record (e : Event) : Step Unit := modify fun m => { m with events := m.events ++ [e] }

/-- Report messages to a receiver in order. -/
def sayAll (sink : Sink) (messages : List Message) : Step Unit :=
  modify fun m => { m with events := m.events ++ sink.events messages }

/-- Report something to a receiver. -/
def say (sink : Sink) (level : Level) (text : String) : Step Unit := sayAll sink [⟨level, text⟩]

/-- Note something about a download, if notes are wanted. -/
def note (wanted : Bool) (p : Progress) : Step Unit :=
  if wanted then record (.progress p) else return

/-- Write a line to the output. -/
def putLine (text : String) : Step Unit := record (.output (text ++ "\n"))

/-- The bytes of a file. -/
def readBytes (path : String) : Step (Except SystemError (List UInt8)) := do
  let m ← get
  return m.files.read m.directory path

/-- The text of a file. -/
def readText (path : String) : Step (Except ReadError (List Char)) := do
  match ← readBytes path with
  | .error e => return .error (.system e)
  | .ok bytes =>
    match Text.decode bytes with
    | .ok text => return .ok text
    | .error _ => return .error .notText

/-- Something stands at a path. -/
def pathExists (path : String) : Step Bool := do
  let m ← get
  return m.files.exists? m.directory path

/-- Write a text to a file. -/
def writeText (path : String) (text : List Char) : Step (Except SystemError Unit) := do
  let m ← get
  match m.files.write m.directory path (Text.encode text) with
  | .error e => return .error e
  | .ok files => do
    set { m with files }
    return .ok ()

/-- Take a file away. -/
def remove (path : String) : Step Unit :=
  modify fun m =>
    match m.files.locate m.directory path with
    | .ok (p, _) => { m with files := m.files.erase p }
    | .error _ => m

/-- The program at a place. -/
def programAt : Except SystemError (Path × Entry) → Except SystemError (Path × Program)
  | .error e => .error e
  | .ok (p, .file content ⟨_, _, some program⟩) => .ok (p, program content)
  | .ok _ => .error .denied

/-- The program of a name in the first of some directories that has it. If none has, the reason is
that one may not be started, or else why the last directory does not have it. -/
def searchProgram (m : Machine) (name : String) (refusal : SystemError) :
    List Path → Except SystemError (Path × Program)
  | [] => .error refusal
  | directory :: rest =>
    match programAt (m.files.locate directory name) with
    | .ok found => .ok found
    | .error e => m.searchProgram name (if refusal = .denied then .denied else e) rest

/-- The program that a name or a path means. -/
def findProgram (m : Machine) (name : String) : Except SystemError (Path × Program) :=
  if name.toList.contains '/' then programAt (m.files.locate m.directory name)
  else if name = "" then .error .notFound
  else if name.utf8ByteSize > 255 then .error .nameTooLong
  else m.searchProgram name .notFound m.searchPath

/-- The program that a call means. -/
def callee (m : Machine) (name : String) (arguments : List String) :
    Except SystemError (Path × Program) :=
  if (name :: arguments).any (·.toList.contains '\x00') then .error .nulInCall
  else m.findProgram name

/-- Start a program and wait for its end. -/
def start (name : String) (arguments : List String) : Step (Except SystemError Outcome) := do
  let m ← get
  match m.callee name arguments with
  | .error e => return .error e
  | .ok (place, program) => do
    set { m with calls := m.calls ++ [Call.mk place arguments] }
    return .ok (program arguments)

/-- The messages among the events. -/
def log (m : Machine) : List Message :=
  m.events.filterMap fun
    | .message msg => some msg
    | _ => none

end Machine

namespace Event

/-- The bytes of a line. -/
def lineBytes (line : String) : List UInt8 := Text.encode (line.toList ++ ['\n'])

/-- What an event writes to the output, in colors or not. -/
def stdout (useColors : Bool) : Event → List UInt8
  | .message m => if m.level.toErrorStream then [] else lineBytes (m.line useColors)
  | .progress _ => []
  | .output text => Text.encode text.toList
  | .complaint _ => []
  | .program out _ => out

/-- What an event writes to the error stream, in colors or not. A note about a download is drawn on
a terminal and is no part of the stream. -/
def stderr (useColors : Bool) : Event → List UInt8
  | .message m => if m.level.toErrorStream then lineBytes (m.line useColors) else []
  | .progress _ => []
  | .output _ => []
  | .complaint text => Text.encode text.toList
  | .program _ err => err

end Event

end ScriptDeps
