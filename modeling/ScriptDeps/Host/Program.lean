/-!
# Programs

A program is started with arguments; it writes to its two streams and ends with a code or by a
signal.
-/

namespace ScriptDeps

/-- How a program ends. -/
inductive ExitStatus where
  /-- By itself, with a code. -/
  | exited (code : Nat)
  /-- By a signal. -/
  | killed (signal : Nat)
  deriving DecidableEq, Repr

/-- Names of the signals, the first with number one. -/
def signalNames : List String :=
  ["SIGHUP", "SIGINT", "SIGQUIT", "SIGILL", "SIGTRAP", "SIGABRT", "SIGBUS", "SIGFPE", "SIGKILL",
    "SIGUSR1", "SIGSEGV", "SIGUSR2", "SIGPIPE", "SIGALRM", "SIGTERM", "SIGSTKFLT", "SIGCHLD",
    "SIGCONT", "SIGSTOP", "SIGTSTP", "SIGTTIN", "SIGTTOU", "SIGURG", "SIGXCPU", "SIGXFSZ",
    "SIGVTALRM", "SIGPROF", "SIGWINCH", "SIGIO", "SIGPWR", "SIGSYS"]

namespace ExitStatus

/-- The program ended well. -/
def isSuccess (s : ExitStatus) : Bool := s == .exited 0

/-- The code of a program, which is one if a signal ended it. -/
def code : ExitStatus → Nat
  | exited code => code
  | killed _ => 1

/-- How a program ended, in words. -/
def message : ExitStatus → String
  | exited code => s!"exit status: {code}"
  | killed signal =>
    match signalNames[signal - 1]? with
    | some name => if signal = 0 then "signal: 0" else s!"signal: {signal} ({name})"
    | none => s!"signal: {signal}"

end ExitStatus

/-- What a program does when it is started. -/
structure Outcome where
  /-- What it writes to its output. -/
  stdout : List UInt8
  /-- What it writes to its error stream. -/
  stderr : List UInt8
  /-- How it ends. -/
  status : ExitStatus
  deriving DecidableEq, Repr

/-- A program: what it does for given arguments. -/
abbrev Program := List String → Outcome

end ScriptDeps
