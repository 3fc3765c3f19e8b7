import ScriptDeps.Host.Machine
import ScriptDeps.Modules.Universe
import ScriptDeps.Text.Blank
import ScriptDeps.Text.Lines

/-!
# Asking an interpreter

An interpreter can be asked which modules come with it. Its answer is added to the modules that are
known without asking; an interpreter that cannot answer is an error.
-/

namespace ScriptDeps

/-- Why an interpreter did not answer. -/
inductive ProbeError where
  /-- It could not be started. -/
  | spawn (interpreter : String) (e : SystemError)
  /-- It ended badly. -/
  | failed (interpreter : String) (status : ExitStatus) (stderr : String)
  /-- Its answer is no text. -/
  | notText (e : Text.Utf8Error)
  deriving DecidableEq, Repr

namespace ProbeError

/-- What a probe error says. -/
def message : ProbeError → String
  | spawn interpreter e => s!"Failed to start interpreter {interpreter}: {e.message}"
  | failed interpreter status stderr =>
    s!"Interpreter {interpreter} exited with {status.message}: {stderr}"
  | notText e => s!"Interpreter produced non UTF-8 output: {e.message}"

/-- What a probe error says, then what its own causes say. -/
def causes (e : ProbeError) : List String :=
  e.message ::
    match e with
    | spawn _ cause => [cause.message]
    | failed _ _ _ => []
    | notText cause => [cause.message]

end ProbeError

/-- The program text that makes an interpreter name its modules. -/
def probeText : String :=
  "import sys; print('\\n'.join(sorted(set(sys.builtin_module_names) | " ++
    "set(getattr(sys, 'stdlib_module_names', ())))))"

/-- What an interpreter is given to name its modules. -/
def probeArguments : List String := ["-I", "-c", probeText]

/-- The modules that an answer names, one on each line that is not blank. -/
def namesInAnswer (answer : List Char) : List String :=
  (((Text.bareLines answer).map Text.trim).filter (!·.isEmpty)).map String.ofList

/-- The modules that are known after an interpreter did something when asked. -/
def Universe.ofOutcome (interpreter : String) (o : Outcome) : Except ProbeError Universe :=
  if !o.status.isSuccess then
    .error (.failed interpreter o.status (String.ofList (Text.trim (Text.decodeLossy 0 o.stderr))))
  else
    match Text.decode o.stdout with
    | .error e => .error (.notText e)
    | .ok answer => .ok (Universe.bundled.extend (namesInAnswer answer))

/-- Ask an interpreter for its modules. -/
def probe (interpreter : String) : Machine.Step (Except ProbeError Universe) := do
  match ← Machine.start interpreter probeArguments with
  | .error e => return .error (.spawn interpreter e)
  | .ok outcome => return Universe.ofOutcome interpreter outcome

/-- The modules that an interpreter knows, or those known without one. -/
def universeFor : Option String → Machine.Step (Except ProbeError Universe)
  | some interpreter => probe interpreter
  | none => return .ok Universe.bundled

end ScriptDeps
