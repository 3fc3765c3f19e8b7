/-!
# Structured data

Data as texts in the JSON and YAML formats hold it.
-/

namespace ScriptDeps

/-- A piece of data. -/
inductive Data where
  /-- No value. -/
  | null
  /-- True or false. -/
  | boolean (value : Bool)
  /-- A number, as written. -/
  | number (text : String)
  /-- A text. -/
  | string (value : String)
  /-- Values in a row. -/
  | list (items : List Data)
  /-- Values with names, in the order in which they are written. -/
  | record (fields : List (String × Data))
  deriving Repr, Inhabited

namespace Data

/-- A whole number that is not negative. -/
def natural (n : Nat) : Data := .number (toString n)

/-- Texts in a row. -/
def texts (values : List String) : Data := .list (values.map .string)

end Data

end ScriptDeps
