import ScriptDeps.Data.Basic
import ScriptDeps.Data.YamlScalar

/-!
# The YAML format

Data are written in the YAML format by blocks: each field and each item has a line of its own, and
the lines of a list stand as deep as its name.
-/

namespace ScriptDeps.Data.Yaml

/-- Blanks in front of a line. -/
def blanks (indent : Nat) : List Char := List.replicate indent ' '

/-- A value on one line, or behind a bar, with its line end. -/
def simple (indent : Nat) : Data → List Char
  | .null => "null\n".toList
  | .boolean b => (if b then "true\n" else "false\n").toList
  | .number text => text.toList ++ ['\n']
  | .string s => scalar (indent + 2) s.toList
  | .list _ => "[]\n".toList
  | .record _ => ['\x7b', '\x7d', '\n']

mutual

/-- The value of a field that stands at an indentation, from behind its colon. -/
def fieldValue (indent : Nat) : Data → List Char
  | .list (item :: items) => '\n' :: listItems indent (item :: items)
  | .record (field :: fields) => '\n' :: recordFields (indent + 2) (field :: fields)
  | d => ' ' :: simple indent d

/-- The value of an item that stands at an indentation, from behind its dash. -/
def itemValue (indent : Nat) : Data → List Char
  | .list (item :: items) =>
    "- ".toList ++ itemValue (indent + 2) item ++ listItems (indent + 2) items
  | .record ((name, value) :: fields) =>
    name.toList ++ ':' :: fieldValue (indent + 2) value ++ recordFields (indent + 2) fields
  | d => simple indent d

/-- Items in a row. -/
def listItems (indent : Nat) : List Data → List Char
  | [] => []
  | item :: items => blanks indent ++ "- ".toList ++ itemValue indent item ++ listItems indent items

/-- Fields in a row; their names are plain words. -/
def recordFields (indent : Nat) : List (String × Data) → List Char
  | [] => []
  | (name, value) :: fields =>
    blanks indent ++ name.toList ++ ':' :: fieldValue indent value ++ recordFields indent fields

end

/-- Data as a whole text. -/
def document : Data → List Char
  | .record fields => recordFields 0 fields
  | d => itemValue 0 d

end ScriptDeps.Data.Yaml
