/-!
# Errors of the system

The reasons for which a system refuses to do something with a file or a program.
-/

namespace ScriptDeps

/-- Why a system refuses. -/
inductive SystemError where
  /-- Something on the path does not exist. -/
  | notFound
  /-- It is not allowed. -/
  | denied
  /-- Something on the path is no directory. -/
  | notDirectory
  /-- It is a directory. -/
  | isDirectory
  /-- The path, or a name on it, is too long. -/
  | nameTooLong
  /-- The path has a NUL character. -/
  | nulInPath
  /-- The name of a program or what it is given has a NUL character. -/
  | nulInCall
  /-- There is no way to the other computer. -/
  | unreachable
  deriving DecidableEq, Repr

/-- What an error of the system says. -/
def SystemError.message : SystemError → String
  | notFound => "No such file or directory (os error 2)"
  | denied => "Permission denied (os error 13)"
  | notDirectory => "Not a directory (os error 20)"
  | isDirectory => "Is a directory (os error 21)"
  | nameTooLong => "File name too long (os error 36)"
  | nulInPath => "file name contained an unexpected NUL byte"
  | nulInCall => "nul byte found in provided data"
  | unreachable => "Network is unreachable (os error 101)"

/-- Why a text cannot be read from a file. -/
inductive ReadError where
  /-- The system refuses. -/
  | system (e : SystemError)
  /-- The file holds no text. -/
  | notText
  deriving DecidableEq, Repr

/-- What a read error says. -/
def ReadError.message : ReadError → String
  | system e => e.message
  | notText => "stream did not contain valid UTF-8"

end ScriptDeps
