import ScriptDeps.Runner

/-!
# Checks before a script is used

A script has to exist and should have the usual ending; the runner has to be there.
-/

namespace ScriptDeps

/-- Why a script is not used. -/
inductive ValidationError where
  /-- There is no such script. -/
  | noScript (path : String)
  /-- There is no such runner. -/
  | noRunner (runner : String)
  deriving DecidableEq, Repr

/-- What a validation error says. -/
def ValidationError.message : ValidationError → String
  | noScript path => s!"Script '{path}' does not exist."
  | noRunner runner =>
    s!"'{runner}' is not installed or not available in PATH. Please install uv: " ++
      "https://github.com/astral-sh/uv"

/-- The last name of a written path, if it is one: slashes and single dots at the end are left
out. -/
def fileName? (path : String) : Option String :=
  let names := (namesIn path).reverse.filter fun n => n ≠ "" ∧ n ≠ "."
  names.head?.filter (· ≠ "..")

/-- What stands behind the last dot of a name, if something stands before it. -/
def extension? (name : List Char) : Option (List Char) :=
  let ending := name.reverse.takeWhile (· != '.')
  if name.length ≤ ending.length + 1 then none else some ending.reverse

/-- A path with the ending of a script. -/
def hasScriptEnding (path : String) : Bool :=
  (fileName? path).any fun name => extension? name.toList == some "py".toList

namespace Machine

/-- A script exists. -/
def checkExists (path : String) : Step (Except ValidationError Unit) := do
  if ← pathExists path then return .ok () else return .error (.noScript path)

/-- A warning if a script lacks the usual ending, and whether it has it. -/
def checkEnding (sink : Sink) (path : String) : Step Bool := do
  if hasScriptEnding path then return true
  else
    say sink .warning s!"'{path}' does not have a .py extension."
    return false

/-- A script exists, and a warning if it lacks the usual ending. -/
def checkScript (sink : Sink) (path : String) : Step (Except ValidationError Unit) := do
  match ← checkExists path with
  | .error e => return .error e
  | .ok () => do
    let _ ← checkEnding sink path
    return .ok ()

/-- A runner is there. -/
def checkRunner (runner : String) : Step (Except ValidationError Unit) := do
  if ← hasRunner runner then return .ok () else return .error (.noRunner runner)

end Machine

end ScriptDeps
