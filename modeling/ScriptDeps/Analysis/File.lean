import ScriptDeps.Analysis
import ScriptDeps.Host.Machine
import ScriptDeps.Report
import ScriptDeps.Settings

/-!
# Analysis of a file

The steps that analyze the script in a file and tell what they find. A file that cannot be read is
told of like a script that cannot be parsed.
-/

namespace ScriptDeps

/-- The block that says what was found. -/
def Analysis.block (a : Analysis) (version : String) : List Char :=
  Block.generate a.dependencies version

namespace Machine

/-- Analyze a text and tell a receiver what is found. -/
def analyzeText (sink : Sink) (u : Universe) (title : String) (source : List Char) :
    Step Analysis := do
  let (analysis, log) := Analysis.ofText u title source
  sayAll sink log
  return analysis

/-- Analyze the script in a file and tell a receiver what is found. -/
def analyzeFile (sink : Sink) (u : Universe) (path : String) : Step Analysis := do
  match ← readText path with
  | .ok source => analyzeText sink u path source
  | .error e => do
    say sink .error s!"Error reading {path}: {e.message}"
    return .failure

/-- The block for the script in a file. -/
def blockOfFile (sink : Sink) (u : Universe) (version path : String) : Step (List Char) := do
  return (← analyzeFile sink u path).block version

/-- The report about the script in a file. -/
def reportOnFile (sink : Sink) (u : Universe) (version path : String) : Step Report := do
  let analysis ← analyzeFile sink u path
  return ⟨path, version, analysis, String.ofList (analysis.block version), (← get).clock,
    toolVersion⟩

end Machine

/-- A script with the block that fits it. -/
def updated (u : Universe) (version : String) (source : List Char) : List Char :=
  Block.reconcile source ((Analysis.ofSource u source).1.block version)

end ScriptDeps
