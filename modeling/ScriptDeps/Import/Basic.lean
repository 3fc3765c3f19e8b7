/-!
# Imports

An import is one name that a script imports, or one `from` statement, with the place and the text
of its statement.
-/

namespace ScriptDeps

/-- The form of an import. -/
inductive Import.Form where
  /-- A module is imported. -/
  | module
  /-- Names are imported from a module. -/
  | names
  /-- Language features are switched on. -/
  | future
  deriving DecidableEq, Repr

/-- Where an imported module comes from. -/
inductive Import.Origin where
  /-- A package that has to be installed. -/
  | external
  /-- The modules that need no installation. -/
  | bundled
  /-- The package of the script. -/
  | here
  /-- Not looked up. -/
  | unknown
  deriving DecidableEq, Repr

/-- An import as a script writes it. -/
structure Import where
  /-- The path of the module, dots in front included. -/
  path : String
  /-- The names imported from the module. -/
  items : List String
  /-- The form of the import. -/
  form : Import.Form
  /-- The line of the import, counted from one. -/
  line : Nat
  /-- The bytes before the import on its line. -/
  column : Nat
  /-- The text of the statement. -/
  raw : String
  /-- Where the module comes from. -/
  origin : Import.Origin
  /-- The name that the module is given instead of its own. -/
  rename : Option String
  deriving DecidableEq, Repr

namespace Import

/-- The first component of a module path, dots in front left out. -/
def topLevelOf (path : List Char) : Option String :=
  let name := (path.dropWhile (· == '.')).takeWhile (· != '.')
  if name.isEmpty then none else some (String.ofList name)

/-- The first component of the module path; a path of dots alone has none. -/
def topLevel (i : Import) : Option String := topLevelOf i.path.toList

end Import

end ScriptDeps
