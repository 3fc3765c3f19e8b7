import ScriptDeps.Data.Basic

/-!
# The JSON format

Data are written in the JSON format on one line, or over several lines with two blanks for each
level. Texts escape quotes, backslashes and control characters and nothing else.
-/

namespace ScriptDeps.Data.Json

/-- The hexadecimal digit of a number below sixteen. -/
def hexDigit (n : Nat) : Char := "0123456789abcdef".toList.getD n '0'

/-- A character inside a text. -/
def escape (c : Char) : List Char :=
  match c with
  | '"' => ['\\', '"']
  | '\\' => ['\\', '\\']
  | '\x08' => ['\\', 'b']
  | '\x0c' => ['\\', 'f']
  | '\n' => ['\\', 'n']
  | '\r' => ['\\', 'r']
  | '\t' => ['\\', 't']
  | c =>
    if c.toNat < 0x20 then ['\\', 'u', '0', '0', hexDigit (c.toNat / 16), hexDigit (c.toNat % 16)]
    else [c]

/-- A text in quotes. -/
def quote (s : String) : List Char := '"' :: s.toList.flatMap escape ++ ['"']

/-- A value that has no parts. -/
def scalar : Data → List Char
  | .null => "null".toList
  | .boolean b => (if b then "true" else "false").toList
  | .number text => text.toList
  | .string s => quote s
  | .list _ | .record _ => []

/-- A new line with the blanks of a level. -/
def newLine (level : Nat) : List Char := '\n' :: List.replicate (2 * level) ' '

mutual

/-- Data over several lines, at a level. -/
def pretty (level : Nat) : Data → List Char
  | .list [] => "[]".toList
  | .list (item :: items) =>
    '[' :: newLine (level + 1) ++ pretty (level + 1) item ++ prettyItems (level + 1) items
      ++ newLine level ++ [']']
  | .record [] => ['\x7b', '\x7d']
  | .record ((name, value) :: fields) =>
    '\x7b' :: newLine (level + 1) ++ quote name ++ ": ".toList ++ pretty (level + 1) value
      ++ prettyFields (level + 1) fields ++ newLine level ++ ['\x7d']
  | d => scalar d

/-- The items after the first. -/
def prettyItems (level : Nat) : List Data → List Char
  | [] => []
  | item :: items => ',' :: newLine level ++ pretty level item ++ prettyItems level items

/-- The fields after the first. -/
def prettyFields (level : Nat) : List (String × Data) → List Char
  | [] => []
  | (name, value) :: fields =>
    ',' :: newLine level ++ quote name ++ ": ".toList ++ pretty level value
      ++ prettyFields level fields

end

mutual

/-- Data on one line. -/
def compact : Data → List Char
  | .list [] => "[]".toList
  | .list (item :: items) => '[' :: compact item ++ compactItems items ++ [']']
  | .record [] => ['\x7b', '\x7d']
  | .record ((name, value) :: fields) =>
    '\x7b' :: quote name ++ ':' :: compact value ++ compactFields fields ++ ['\x7d']
  | d => scalar d

/-- The items after the first. -/
def compactItems : List Data → List Char
  | [] => []
  | item :: items => ',' :: compact item ++ compactItems items

/-- The fields after the first. -/
def compactFields : List (String × Data) → List Char
  | [] => []
  | (name, value) :: fields => ',' :: quote name ++ ':' :: compact value ++ compactFields fields

end

end ScriptDeps.Data.Json
