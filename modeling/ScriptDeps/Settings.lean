/-!
# Settings

What a user can choose about the analysis and the start of scripts.
-/

namespace ScriptDeps

/-- The versions of the interpreter that a block asks for if nothing else is said. -/
def defaultVersion : String := ">=3.13"

/-- The program that starts scripts if nothing else is said. -/
def defaultRunner : String := "uv"

/-- The choices of a user. -/
structure Settings where
  /-- The versions of the interpreter that a block asks for. -/
  pythonVersion : String
  /-- The interpreter that is asked for its modules, if one is. -/
  interpreter : Option String
  /-- The program that starts scripts. -/
  runner : String
  deriving DecidableEq, Repr

namespace Settings

/-- The choices of a user who makes none. -/
def default : Settings := ⟨defaultVersion, none, defaultRunner⟩

/-- The choices where a version, an interpreter and a runner may be given. -/
def choose (pythonVersion interpreter runner : Option String) : Settings :=
  ⟨pythonVersion.getD default.pythonVersion, interpreter, runner.getD default.runner⟩

end Settings

end ScriptDeps
