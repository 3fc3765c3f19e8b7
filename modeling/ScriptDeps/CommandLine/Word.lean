/-!
# Words of a command line

A word may stand for itself, name an option, or be a cluster of letters each of which names one. A
lone dash stands for itself; two dashes alone end the options.
-/

namespace ScriptDeps.CommandLine

/-- What a word looks like. -/
inductive Word where
  /-- Two dashes. -/
  | separator
  /-- The name of an option after two dashes, with a value behind an equals sign if there is one. -/
  | long (name : List Char) (value : Option (List Char))
  /-- Letters after one dash. -/
  | cluster (letters : List Char)
  /-- Anything else. -/
  | plain
  deriving DecidableEq, Repr

/-- The text behind the first equals sign, if there is one. -/
def attached? (s : List Char) : Option (List Char) :=
  match s.dropWhile (· != '=') with
  | [] => none
  | _ :: value => some value

/-- What a text looks like as a word. -/
def Word.ofText (text : String) : Word :=
  match text.toList with
  | ['-', '-'] => .separator
  | '-' :: '-' :: s => .long (s.takeWhile (· != '=')) (attached? s)
  | '-' :: c :: s => .cluster (c :: s)
  | _ => .plain

end ScriptDeps.CommandLine
