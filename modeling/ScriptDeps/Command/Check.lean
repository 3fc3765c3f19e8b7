import ScriptDeps.Analysis.File
import ScriptDeps.Command.Failure

/-!
# Checking a script

A check reports on a script and leaves it as it is.
-/

namespace ScriptDeps.Command

open Machine

/-- The modules that the settings ask for. -/
def knownModules (settings : Settings) : Attempt Universe :=
  attempt .probe (universeFor settings.interpreter)

/-- Find the script that a command is about. A console that shows details shows a download, too. -/
def findScript (console : Console) (script : String) : Attempt Source :=
  attempt (.fetch script) (resolve console script console.verbose)

/-- The report on a script, in a format. -/
def rendered (console : Console) (settings : Settings) (format : Report.Format)
    (script : String) : Attempt String := do
  let source ← findScript console script
  clearing (release source) do
    attempt .invalid (checkExists source.path)
    let known ← knownModules settings
    let report ← reportOnFile console known settings.pythonVersion source.path
    return report.write format

/-- Report on a script, in a file if one is given. -/
def check (console : Console) (settings : Settings) (format : Report.Format)
    (output : Option String) (script : String) : Attempt Nat := do
  let text ← rendered console settings format script
  match output with
  | none => putLine text
  | some path => do
    attempt .output (writeText path (text ++ "\n").toList)
    say console .verbose s!"Output written to: {path}"
  return 0

end ScriptDeps.Command
