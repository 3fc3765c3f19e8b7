import ScriptDeps.DependencyList
import ScriptDeps.Import.Reader
import ScriptDeps.Message
import ScriptDeps.Modules.Universe
import ScriptDeps.Packages

/-!
# Analysis of a script

The imports of a script, told apart by where their modules come from, and the packages that have to
be installed. A script that cannot be read has none of these, and one error message says why.
-/

namespace ScriptDeps

/-- What is found in a script. -/
structure Analysis where
  /-- The imports in the order of the text. -/
  imports : List Import
  /-- The modules of the imports that need no installation. -/
  bundled : List String
  /-- The packages to install. -/
  dependencies : DependencyList
  /-- The script could not be read. -/
  failed : Bool
  deriving DecidableEq, Repr

namespace Analysis

/-- What is found in a script that cannot be read. -/
def failure : Analysis := ⟨[], [], .empty, true⟩

/-- The message about where the module of an import comes from. -/
def remark (i : Import) : Message :=
  ⟨.verbose,
    match i.origin, i.topLevel with
    | .bundled, some name => s!"line {i.line}: {name} is part of the standard library"
    | .external, some name =>
      let package := packageOf name
      if package = name then s!"line {i.line}: {name} is third-party"
      else s!"line {i.line}: {name} is provided by package {package}"
    | _, _ => s!"line {i.line}: skipping bare relative import {i.path}"⟩

/-- The first components of the imports of an origin. -/
def namesOf (origin : Import.Origin) (imports : List Import) : List String :=
  (imports.filter (·.origin == origin)).filterMap Import.topLevel

/-- What is found in the given imports. -/
def ofImports (u : Universe) (imports : List Import) : Analysis :=
  let imports := imports.map u.classify
  ⟨imports, (NameSet.ofList (namesOf .bundled imports)).toList,
    .ofNames ((namesOf .external imports).map packageOf), false⟩

/-- What is found in a script of the given name, and the messages about it. -/
def ofText (u : Universe) (title : String) (source : List Char) : Analysis × List Message :=
  match Import.ofSource source with
  | .error e => (failure, [⟨.error, s!"Error parsing {title}: {e.message}"⟩])
  | .ok imports =>
    let analysis := ofImports u imports
    (analysis, analysis.imports.map remark)

/-- What is found in the text of a script, and the messages about it. -/
def ofSource (u : Universe) (source : List Char) : Analysis × List Message :=
  ofText u "script" source

end Analysis

end ScriptDeps
