import ScriptDeps.Command.Add
import ScriptDeps.Runner

/-!
# Running a script

A script is run with the packages that it needs. A script with a block is run as it is, since the
runner reads the block.
-/

namespace ScriptDeps.Command

open Machine

/-- Say what the block of a script declares. -/
def sayDeclared (console : Console) (block : List Char) : Step Unit := do
  say console .info "Script already has PEP 723 metadata. Using existing dependencies."
  match Metadata.ofBlock block with
  | .ok metadata =>
    if !metadata.dependencies.isEmpty then
      say console .verbose
        ("Declared dependencies: " ++ ", ".intercalate metadata.dependencies)
  | .error e => say console .warning s!"Existing metadata is not valid: {e.message}"

/-- The packages that a runner has to be told of. -/
def packagesToName (console : Console) (settings : Settings) (text : List Char) :
    Attempt DependencyList := do
  let split := Block.split text
  if split.hasBlock then
    sayDeclared console split.block
    return .empty
  else
    let known ← knownModules settings
    let analysis ← analyzeText console known "script" text
    sayDependencies console "Detected dependencies" analysis.dependencies
      "No third-party dependencies detected."
    return analysis.dependencies

/-- Start the script at a path with its packages, and the code it ends with. -/
def startAt (console : Console) (settings : Settings) (path : String)
    (dependencies : DependencyList) (arguments : List String) : Attempt Nat := do
  let code ← attempt .run (Machine.run console settings.runner path dependencies arguments)
  if code ≠ 0 then say console .error s!"Script execution failed with exit code {code}"
  return code

/-- Run the script at a path, and the code it ends with. -/
def runAt (console : Console) (settings : Settings) (path : String) (arguments : List String) :
    Attempt Nat := do
  attempt .invalid (checkScript console path)
  let text ← scriptText path
  let dependencies ← packagesToName console settings text
  startAt console settings path dependencies arguments

/-- Run a script, and the code it ends with. -/
def run (console : Console) (settings : Settings) (script : String) (arguments : List String) :
    Attempt Nat := do
  attempt .invalid (checkRunner settings.runner)
  let source ← findScript console script
  clearing (release source) (runAt console settings source.path arguments)

end ScriptDeps.Command
