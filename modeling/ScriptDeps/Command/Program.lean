import ScriptDeps.Command.Run
import ScriptDeps.CommandLine.Help

/-!
# The program

The program reads its command line, does what it asks for, and ends with a code. A failure is told
of and gives the code one; an error in the command line gives the code two.
-/

namespace ScriptDeps

open CommandLine Machine

/-- Do what is wanted, and tell a console of it. -/
def Command.perform (console : Console) (settings : Settings) : Task → Attempt Nat
  | .run script arguments => Command.run console settings script arguments
  | .check script format output => Command.check console settings format output script
  | .add script => Command.add console settings script

/-- The code that a program ends with; codes that do not fit into a byte give one. -/
def exitCode (code : Nat) : Nat := if code < 256 then code else 1

/-- Try a command, tell of its failure, and end with a code. -/
def Command.conclude (console : Console) (work : Attempt Nat) : Step Nat := do
  match ← work.run with
  | .ok code => return exitCode code
  | .error failure => do
    say console .error s!"Error: {failure.message}"
    return 1

/-- Do what a command line asks for, in colors or not, and the code to end with. -/
def execute (useColors : Bool) : Except Stop Invocation → Step Nat
  | .ok i =>
    let console : Console := ⟨i.verbose, useColors⟩
    Command.conclude console (Command.perform console i.settings i.task)
  | .error (.help topic) => do
    putLine topic.helpText
    return 0
  | .error .version => do
    putLine s!"autopep723 {toolVersion}"
    return 0
  | .error .noScript => do
    putLine Scope.program.helpText
    return 1
  | .error (.usage e) => do
    record (.complaint e.report)
    return 2

end ScriptDeps
