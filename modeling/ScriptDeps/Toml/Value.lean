/-!
# Values of a configuration text

The values that a text in the TOML format can hold. Fractions and dates keep the text they are
written with.
-/

namespace ScriptDeps.Toml

/-- A value. -/
inductive Value where
  /-- A text. -/
  | string (text : String)
  /-- A whole number. -/
  | integer (value : Int)
  /-- A fraction, as written. -/
  | float (text : String)
  /-- True or false. -/
  | boolean (value : Bool)
  /-- A date, a time or both, as written. -/
  | datetime (text : String)
  /-- Values in a row. -/
  | array (items : List Value)
  /-- Values with keys. -/
  | table (entries : List (String × Value))
  deriving Repr

namespace Value

/-- The text of a value that is one. -/
def string? : Value → Option String
  | .string text => some text
  | _ => none

/-- The items of a value that is an array of texts. -/
def strings? : Value → Option (List String)
  | .array items => items.mapM string?
  | _ => none

end Value

/-- The value of a key. -/
def find? (key : String) (entries : List (String × Value)) : Option Value := entries.lookup key

end ScriptDeps.Toml
