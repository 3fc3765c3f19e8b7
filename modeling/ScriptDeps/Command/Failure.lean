import ScriptDeps.Modules.Probe
import ScriptDeps.Remote
import ScriptDeps.Validation

/-!
# Failures of commands

A command that cannot go on fails. What it says names what was being done, and then each cause in
turn.
-/

namespace ScriptDeps

/-- Why a command could not go on. -/
inductive Failure where
  /-- The script or the runner is missing. -/
  | invalid (e : ValidationError)
  /-- The script could not be fetched. -/
  | fetch (address : String) (e : FetchError)
  /-- The script could not be read. -/
  | read (path : String) (e : ReadError)
  /-- The interpreter did not name its modules. -/
  | probe (e : ProbeError)
  /-- The script was not started. -/
  | run (e : RunError)
  /-- The script could not be written. -/
  | write (path : String) (e : SystemError)
  /-- The report could not be written. -/
  | output (e : SystemError)
  deriving DecidableEq, Repr

/-- What is said when an interpreter does not name its modules. -/
def ProbeError.universeMessage (e : ProbeError) : String := s!"Module universe error: {e.message}"

namespace Failure

/-- What was being done, then what each cause says. -/
def causes : Failure → List String
  | invalid e => [e.message]
  | fetch address e => s!"Failed to fetch {address}" :: e.causes
  | read path e => [s!"Failed to read {path}", e.message]
  | probe e => "Failed to initialize import analyzer" :: e.universeMessage :: e.causes
  | run e => e.causes
  | write path e => [s!"Failed to write {path}", e.message]
  | output e => [e.message]

/-- What a failure says. -/
def message (f : Failure) : String := ": ".intercalate f.causes

end Failure

/-- A step that can fail. -/
abbrev Attempt (α : Type) := ExceptT Failure Machine.Step α

/-- A step whose errors are failures. -/
def attempt {ε α : Type} (asFailure : ε → Failure) (step : Machine.Step (Except ε α)) :
    Attempt α := do
  match ← step with
  | .ok a => return a
  | .error e => throw (asFailure e)

/-- Try a step, clear up after it, and then succeed or fail as it did. -/
def clearing {α : Type} (clearUp : Machine.Step Unit) (work : Attempt α) : Attempt α :=
  ExceptT.mk do
    let result ← work.run
    clearUp
    return result

end ScriptDeps
