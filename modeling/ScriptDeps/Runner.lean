import ScriptDeps.DependencyList
import ScriptDeps.Host.Machine

/-!
# Starting scripts

A script is started by a runner, a program that installs the packages named to it first. The runner
must be there before anything else happens.
-/

namespace ScriptDeps

/-- Why a script was not started. -/
inductive RunError where
  /-- There is no such runner. -/
  | notInstalled (runner : String)
  /-- The runner could not be started. -/
  | system (runner : String) (e : SystemError)
  deriving DecidableEq, Repr

namespace RunError

/-- What a run error says. -/
def message : RunError → String
  | notInstalled runner =>
    s!"'{runner}' command not found. Please install uv first: https://github.com/astral-sh/uv"
  | system runner e => s!"Failed to run '{runner}': {e.message}"

/-- What a run error says, then what its causes say. -/
def causes (e : RunError) : List String :=
  e.message ::
    match e with
    | notInstalled _ => []
    | system _ cause => [cause.message]

end RunError

/-- What a runner is given to start a script with some packages. -/
def runArguments (script : String) (dependencies : DependencyList) (arguments : List String) :
    List String :=
  "run" :: dependencies.names.flatMap (fun d => ["--with", d]) ++ script :: arguments

/-- The command that starts a script, as users see it. -/
def runLine (runner script : String) (dependencies : DependencyList) (arguments : List String) :
    String :=
  " ".intercalate (runner :: runArguments script dependencies arguments)

namespace Machine

/-- The runner is there: it tells its version. -/
def hasRunner (runner : String) : Step Bool := do
  match ← start runner ["--version"] with
  | .error _ => return false
  | .ok outcome => return outcome.status.isSuccess

/-- Start a script and wait for its end: the code it ends with. -/
def run (sink : Sink) (runner script : String) (dependencies : DependencyList)
    (arguments : List String) : Step (Except RunError Nat) := do
  say sink .command (runLine runner script dependencies arguments)
  match ← start runner (runArguments script dependencies arguments) with
  | .error .notFound => return .error (.notInstalled runner)
  | .error e => return .error (.system runner e)
  | .ok outcome => do
    record (.program outcome.stdout outcome.stderr)
    return .ok outcome.status.code

end Machine

end ScriptDeps
