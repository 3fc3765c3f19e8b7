import ScriptDeps.Command.Program
import ScriptDeps.Report.Timestamp

/-!
# The program on this computer

The outer layer. It reads the files that a command line names into a machine, lets the program work
on the machine, and carries over what it wrote. No programs are started here and nothing is fetched,
so that running a script ends with the error that the runner is missing.
-/

open ScriptDeps

/-- The places on the way along some names from a place. -/
def placesAlong : Path → List String → List Path
  | p, [] => [p]
  | p, name :: names =>
    p :: placesAlong
      (if name = "" ∨ name = "." then p else if name = ".." then p.dropLast else p ++ [name]) names

/-- The paths that an invocation works on. -/
def pathsOf (i : CommandLine.Invocation) : List String :=
  match i.task with
  | .run script _ => [script]
  | .check script _ output => script :: output.toList
  | .add script => [script]

/-- A place as the system writes it. -/
def writePlace (p : Path) : String := "/" ++ "/".intercalate p

/-- The file at a place on the disk may be written. -/
def canWrite (p : Path) : IO Bool := do
  try
    let _ ← IO.FS.Handle.mk (writePlace p) .append
    return true
  catch _ => return false

/-- What stands at a place on the disk. -/
def entryOnDisk (p : Path) : IO (Option Entry) := do
  try
    let content ← IO.FS.readBinFile (writePlace p)
    return some (.file content.toList ⟨true, ← canWrite p, none⟩)
  catch
    | .inappropriateType .. => return some .directory
    | .permissionDenied .. => return some (.file [] ⟨false, ← canWrite p, none⟩)
    | _ => return none

/-- The part of the disk that some paths lead through. -/
def filesOnDisk (directory : Path) (paths : List String) : IO FileSystem := do
  let walks := paths.map fun path =>
    placesAlong (if path.toList.head? = some '/' then [] else directory) (namesIn path)
  let places := (placesAlong [] directory :: walks).flatten.filter (· ≠ [])
  let mut files : FileSystem := ⟨[]⟩
  for p in places do
    match ← entryOnDisk p with
    | some entry => files := files.set p entry
    | none => pure ()
  return files

/-- The time now, which is that of a file made now. -/
def timeNow : IO Instant := do
  let (_, path) ← IO.FS.createTempFile
  let time := (← path.metadata).modified
  IO.FS.removeFile path
  return ⟨time.sec.toNat, time.nsec.toNat⟩

/-- Carry the files over that differ. -/
def carryOver (before after : FileSystem) : IO Unit := do
  for (p, entry) in after.entries do
    match entry, before.find? p with
    | .file new _, some (.file old _) =>
      if new ≠ old then IO.FS.writeBinFile (writePlace p) ⟨new.toArray⟩
    | .file new _, _ => IO.FS.writeBinFile (writePlace p) ⟨new.toArray⟩
    | .directory, _ => pure ()

/-- The program. -/
def main (arguments : List String) : IO UInt32 := do
  let reading := CommandLine.read arguments
  let directory := (namesIn (← IO.currentDir).toString).filter (· ≠ "")
  let files ← filesOnDisk directory ((reading.toOption.map pathsOf).getD [])
  let clock := (← timeNow).write
  let start : Machine :=
    ⟨files, directory, [], fun _ => .error .unreachable, "", clock, [], []⟩
  let output ← IO.getStdout
  let errors ← IO.getStderr
  let useColors :=
    showsColors (← IO.getEnv "NO_COLOR").isSome (← IO.getEnv "TERM") (← output.isTty)
  let (code, done) := (execute useColors reading).run start
  carryOver files done.files
  for event in done.events do
    output.write ⟨(event.stdout useColors).toArray⟩
    output.flush
    errors.write ⟨(event.stderr useColors).toArray⟩
    errors.flush
  return code.toUInt32
