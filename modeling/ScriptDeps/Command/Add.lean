import ScriptDeps.Command.Check

/-!
# Adding a block

The block that fits a script is written into it, in the place of the block it has. A script that
has this block already is not written.
-/

namespace ScriptDeps.Command

open Machine

/-- Say which packages were found. -/
def sayDependencies (console : Console) (label : String) (dependencies : DependencyList)
    (none : String) : Step Unit :=
  say console .info (if dependencies.isEmpty then none else s!"{label}: {dependencies.display}")

/-- The text of a script. -/
def scriptText (path : String) : Attempt (List Char) := attempt (.read path) (readText path)

/-- A script with a path that lasts: once it is known to exist, a copy of a remote one stays. -/
def keep (console : Console) (script : String) : Attempt Source := do
  let source ← findScript console script
  match ← checkExists source.path with
  | .ok () => return source
  | .error e => do
    release source
    throw (.invalid e)

/-- Say that a script has the block for its packages. A remote script has it in its copy alone. -/
def sayAdded (console : Console) (source : Source) (dependencies : DependencyList) :
    Step Unit := do
  if let some address := source.address then
    say console .info s!"Working with downloaded script at {source.path}"
    say console .warning s!"Cannot update original remote script. ({address})"
  say console .success s!"Updated {source.path} with PEP 723 metadata."
  sayDependencies console "Dependencies" dependencies "No external dependencies found."

/-- Write the block for what was found in the text of a script into it. -/
def writeBlock (console : Console) (settings : Settings) (source : Source) (text : List Char)
    (analysis : Analysis) : Attempt Nat := do
  let new := Block.reconcile text (analysis.block settings.pythonVersion)
  if new = text then say console .verbose "Metadata already up to date"
  else attempt (.write source.path) (writeText source.path new)
  sayAdded console source analysis.dependencies
  return 0

/-- Write the block that fits a script that was found into it. -/
def addTo (console : Console) (settings : Settings) (source : Source) : Attempt Nat := do
  let text ← scriptText source.path
  let known ← knownModules settings
  let analysis ← analyzeText console known "script" text
  writeBlock console settings source text analysis

/-- Write the block that fits a script into it. -/
def add (console : Console) (settings : Settings) (script : String) : Attempt Nat := do
  let source ← keep console script
  addTo console settings source

end ScriptDeps.Command
