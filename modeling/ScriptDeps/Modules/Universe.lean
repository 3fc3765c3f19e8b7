import ScriptDeps.Import.Basic
import ScriptDeps.Modules.Bundled
import ScriptDeps.NameSet

/-!
# Known modules

The modules that need no installation. An import is looked up by the first component of its path; a
path of dots alone names nothing and stays inside the package of the script.
-/

namespace ScriptDeps

/-- The modules that need no installation. -/
structure Universe where
  /-- The names of the modules. -/
  names : NameSet
  deriving DecidableEq

namespace Universe

/-- The modules of the standard library. -/
def bundled : Universe := ⟨NameSet.ofList bundledModules⟩

/-- More known modules. -/
def extend (u : Universe) (names : List String) : Universe := ⟨names.foldl NameSet.insert u.names⟩

/-- A module is known. -/
def contains (u : Universe) (name : String) : Bool := u.names.contains name

/-- Number of known modules. -/
def size (u : Universe) : Nat := u.names.size

/-- No module is known. -/
def isEmpty (u : Universe) : Bool := u.names.isEmpty

/-- Where a module with a given first component comes from. -/
def originOf (u : Universe) : Option String → Import.Origin
  | none => .here
  | some name => if u.contains name then .bundled else .external

/-- An import with the answer where its module comes from. -/
def classify (u : Universe) (i : Import) : Import := { i with origin := u.originOf i.topLevel }

end Universe

end ScriptDeps
