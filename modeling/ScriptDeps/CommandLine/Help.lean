import ScriptDeps.CommandLine.Reader

/-!
# Help

What a user is told about the program and its commands.
-/

namespace ScriptDeps.CommandLine

/-- What an option is for. -/
def Choice.purpose : Choice → String
  | verbose => "Show verbose output, including the uv command line"
  | python => "Interpreter queried for its builtin and stdlib module names"
  | pythonVersion => s!"Python version requirement [default: {defaultVersion}]"
  | format => "Output format [default: text] [possible values: text, json, yaml, summary]"
  | output => "Output file (defaults to stdout)"
  | help => "Print help"
  | version => "Print version"

/-- An option in a list of options, with its letter if it has one. -/
def Choice.entry (o : Choice) : String :=
  match o.letter? with
  | some c => s!"-{c}, {o.shown}"
  | none => s!"    {o.shown}"

/-- The first line on the use of the program or a command. -/
def Scope.usage : Scope → String
  | .program => "Usage: autopep723 [OPTIONS] [SCRIPT [ARGS]]... [COMMAND]"
  | .check => "Usage: autopep723 check [OPTIONS] <SCRIPT>"
  | .add => "Usage: autopep723 add [OPTIONS] <SCRIPT>"

/-- What the program or a command does. -/
def Scope.purpose : Scope → String
  | .program => "Run Python scripts with their third-party dependencies auto-detected"
  | .check => "Print the PEP 723 metadata block for a script without modifying it"
  | .add => "Write or replace the PEP 723 metadata block in a script"

/-- The lines about commands. -/
def Scope.commandLines : Scope → List String
  | .program =>
    ["", "Commands:", "  check  " ++ Scope.check.purpose,
      "  add    " ++ Scope.add.purpose ++ " [aliases: upgrade]",
      "  help   Print this message or the help of the given subcommand(s)"]
  | _ => []

/-- The lines about the script. -/
def Scope.scriptLines : Scope → List String
  | .program =>
    ["", "Arguments:", "  [SCRIPT [ARGS]]...  Script path or URL to run, then the arguments to it"]
  | _ => ["", "Arguments:", "  <SCRIPT>  Script path or URL"]

/-- The lines about the options. -/
def Scope.optionLines (s : Scope) : List String :=
  "" :: "Options:" :: s.choices.flatMap fun o => ["  " ++ o.entry, "          " ++ o.purpose]

/-- The help on the program or a command. -/
def Scope.helpText (s : Scope) : String :=
  "\n".intercalate (s.purpose :: "" :: s.usage :: s.commandLines ++ s.scriptLines ++ s.optionLines)

/-- What a user is told about an error in a command line. -/
def UsageError.report (e : UsageError) : String :=
  s!"error: {e.message}\n\nFor more information, try '--help'.\n"

end ScriptDeps.CommandLine
