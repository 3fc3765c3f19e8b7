import ScriptDeps.Analysis
import ScriptDeps.Block.Metadata
import ScriptDeps.Data.Json
import ScriptDeps.Data.JsonReader
import ScriptDeps.Data.Yaml

/-!
# Reports

A report holds what was found in a script and the block that says so. It can be written as data, in
the JSON or YAML format, as the bare block, or as a summary; a report written as data can be read
back.
-/

namespace ScriptDeps

/-- What is reported about a script. -/
structure Report where
  /-- The path of the script. -/
  script : String
  /-- The versions of the interpreter that the block asks for. -/
  pythonVersion : String
  /-- What was found in the script. -/
  analysis : Analysis
  /-- The block for the script. -/
  block : String
  /-- When the report was made. -/
  timestamp : String
  /-- The version of the program that made it. -/
  toolVersion : String
  deriving DecidableEq, Repr

/-- The version of this program. -/
def toolVersion : String := "0.1.0"

/-! ## Reports as data -/

/-- The word for a form of import. -/
def Import.Form.word : Import.Form → String
  | .module => "import"
  | .names => "from"
  | .future => "future"

/-- The form that a word stands for. -/
def Import.Form.ofWord? (word : String) : Option Import.Form :=
  [Import.Form.module, .names, .future].find? (·.word == word)

/-- The word for an origin. -/
def Import.Origin.word : Import.Origin → String
  | .external => "external"
  | .bundled => "stdlib"
  | .here => "local"
  | .unknown => "unknown"

/-- The origin that a word stands for. -/
def Import.Origin.ofWord? (word : String) : Option Import.Origin :=
  [Import.Origin.external, .bundled, .here, .unknown].find? (·.word == word)

/-- The fields of an import; it has no empty list of items and no missing alias. -/
def Import.toData (i : Import) : Data :=
  .record <| [("module", .string i.path)]
    ++ (if i.items.isEmpty then [] else [("items", Data.texts i.items)])
    ++ [("kind", .string i.form.word), ("line", .natural i.line), ("column", .natural i.column),
      ("raw", .string i.raw), ("import_type", .string i.origin.word)]
    ++ (i.rename.toList.map fun name => ("alias", .string name))

/-- The fields of a report. -/
def Report.toData (r : Report) : Data :=
  .record
    [("script", .string r.script), ("python_version", .string r.pythonVersion),
      ("imports", .list (r.analysis.imports.map Import.toData)),
      ("stdlib_modules", Data.texts r.analysis.bundled),
      ("dependencies", Data.texts r.analysis.dependencies.names),
      ("failed", .boolean r.analysis.failed), ("metadata_block", .string r.block),
      ("metadata", .record
        [("timestamp", .string r.timestamp), ("tool_version", .string r.toolVersion)])]

/-! ## Reports from data -/

namespace Data

/-- The value of a text. -/
def string? : Data → Option String
  | .string s => some s
  | _ => none

/-- The value of a truth value. -/
def boolean? : Data → Option Bool
  | .boolean b => some b
  | _ => none

/-- The value of a whole number in decimal digits. -/
def natural? : Data → Option Nat
  | .number text =>
    let digits := text.toList
    if digits.isEmpty || !digits.all Char.isDigit then none
    else some (digits.foldl (fun n c => 10 * n + (c.toNat - '0'.toNat)) 0)
  | _ => none

/-- The values of a list of texts. -/
def strings? : Data → Option (List String)
  | .list items => items.mapM string?
  | _ => none

/-- The items of a list. -/
def items? : Data → Option (List Data)
  | .list items => some items
  | _ => none

/-- A field of a record. -/
def field? (name : String) : Data → Option Data
  | .record fields => fields.lookup name
  | _ => none

end Data

/-- The list of packages that a list of texts gives, as it stands. -/
def DependencyList.ofData? (d : Data) : Option DependencyList := d.strings?.map (⟨·⟩)

/-- The import that a record gives. -/
def Import.ofData? (d : Data) : Option Import := do
  let path ← (← d.field? "module").string?
  let items ← ((d.field? "items").elim (some []) (·.strings?))
  let form ← Import.Form.ofWord? (← (← d.field? "kind").string?)
  let line ← (← d.field? "line").natural?
  let column ← (← d.field? "column").natural?
  let raw ← (← d.field? "raw").string?
  let origin ← Import.Origin.ofWord? (← (← d.field? "import_type").string?)
  let rename ←
    match d.field? "alias" with
    | none => some none
    | some .null => some none
    | some d => d.string?.map some
  some ⟨path, items, form, line, column, raw, origin, rename⟩

/-- The report that a record gives. -/
def Report.ofData? (d : Data) : Option Report := do
  let script ← (← d.field? "script").string?
  let pythonVersion ← (← d.field? "python_version").string?
  let imports ← (← (← d.field? "imports").items?).mapM Import.ofData?
  let bundled ← (← d.field? "stdlib_modules").strings?
  let dependencies ← DependencyList.ofData? (← d.field? "dependencies")
  let failed ← (d.field? "failed").elim (some false) (·.boolean?)
  let block ← (← d.field? "metadata_block").string?
  let metadata ← d.field? "metadata"
  let timestamp ← (← metadata.field? "timestamp").string?
  let toolVersion ← (← metadata.field? "tool_version").string?
  some ⟨script, pythonVersion, ⟨imports, bundled, dependencies, failed⟩, block, timestamp,
    toolVersion⟩

/-! ## Written reports -/

namespace Report

/-- How a report is written. -/
inductive Format where
  /-- The bare block. -/
  | text
  /-- Data in the JSON format. -/
  | json
  /-- Data in the YAML format. -/
  | yaml
  /-- A summary for people. -/
  | summary
  deriving DecidableEq, Repr

/-- The word for a format. -/
def Format.word : Format → String
  | text => "text"
  | json => "json"
  | yaml => "yaml"
  | summary => "summary"

/-- All formats. -/
def Format.all : List Format := [.text, .json, .yaml, .summary]

/-- The format that a word stands for. -/
def Format.ofWord? (word : String) : Option Format := all.find? (·.word == word)

/-- Lines with their ends. -/
private def unlines (lines : List String) : String := String.join (lines.map (· ++ "\n"))

/-- Number of imports of an origin. -/
def countOf (r : Report) (origin : Import.Origin) : Nat :=
  r.analysis.imports.countP (·.origin == origin)

/-- A report as a summary. -/
def summary (r : Report) : String :=
  unlines <|
    ["Import Analysis Summary", "=======================", s!"Script: {r.script}",
      s!"Requires Python: {r.pythonVersion}", ""]
    ++ (if r.analysis.failed then ["Script could not be parsed; no imports analyzed.", ""] else [])
    ++ [s!"Total Imports: {r.analysis.imports.length}", s!"- External: {r.countOf .external}",
      s!"- Stdlib: {r.countOf .bundled}", s!"- Local: {r.countOf .here}", ""]
    ++ (if r.analysis.dependencies.isEmpty then ["No third-party dependencies detected.", ""]
      else "Dependencies:" :: r.analysis.dependencies.names.map ("  " ++ ·) ++ [""])
    ++ [r.block]

/-- A report in a format. -/
def write (r : Report) : Format → String
  | .text => r.block
  | .json => String.ofList (Data.Json.pretty 0 r.toData)
  | .yaml => String.ofList (Data.Yaml.document r.toData)
  | .summary => r.summary

/-- The report that a text in the JSON format gives. -/
def ofJson? (s : String) : Option Report := (Data.Json.read? s.toList).bind Report.ofData?

end Report

end ScriptDeps
