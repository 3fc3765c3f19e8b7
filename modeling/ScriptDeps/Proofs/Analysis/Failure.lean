import ScriptDeps.Analysis.File
import ScriptDeps.Proofs.Host.Steps
import ScriptDeps.Proofs.ImportScript.Extraction
import ScriptDeps.Proofs.Import.OldStatements

/-!
# Analysis is all or nothing

A script that cannot be read as a text, does not follow the grammar or has a statement of the older
language gives nothing at all, and one message says so. Every other script gives all its imports,
and no message is an error. Main statement: `Analysis.isAllOrNothing`.
-/

namespace ScriptDeps

open Source Machine

/-- A text is no script: it does not follow the grammar, or a statement of the older language stands
anywhere in it. -/
def Source.IsRefused (source : List Char) : Prop :=
  parse? source = none ∨ ∃ tree, parse? source = some tree ∧
    ∃ x ∈ tree.within .start, x.2.isOf .printStatement ∨ x.2.isOf .execStatement

/-- The file at a path is no script: it cannot be read as a text, or its text is none. -/
def Machine.LacksScript (m : Machine) (path : String) : Prop :=
  (∃ e, m.textAt path = .error e) ∨ ∃ source, m.textAt path = .ok source ∧ IsRefused source

namespace Analysis

/-- Nothing is found, and that is told once. -/
structure IsNothing (analysis : Analysis) (log : List Message) : Prop where
  /-- There is no import. -/
  imports : analysis.imports = []
  /-- There is no known module. -/
  bundled : analysis.bundled = []
  /-- There is no package. -/
  dependencies : analysis.dependencies = .empty
  /-- The analysis failed. -/
  failed : analysis.failed = true
  /-- The only message is an error. -/
  told : ∃ text, log = [⟨.error, text⟩]
  /-- The block asks for a version of the interpreter, and for nothing else. -/
  block (version : String) : analysis.block version = Block.generate .empty version ∧
    analysis.block version = "# /// script\n# requires-python = \"".toList ++ version.toList ++
      "\"\n# ///".toList

/-- All imports are found, and each is told of. -/
structure IsAll (analysis : Analysis) (log : List Message) : Prop where
  /-- The analysis did not fail. -/
  failed : analysis.failed = false
  /-- There is one message for each import. -/
  told : log = analysis.imports.map remark
  /-- No message is an error. -/
  quiet : ∀ message ∈ log, message.level ≠ .error

/-- The analysis of something that may lack a script finds nothing if it does, and all if not. -/
def IsAllOrNothing (lacks : Prop) (analysis : Analysis) (log : List Message) : Prop :=
  lacks ∧ analysis.IsNothing log ∨ ¬ lacks ∧ analysis.IsAll log

/-! ## Texts -/

/-- The texts whose imports cannot be told. -/
theorem exists_error_iff_isRefused {source : List Char} :
    (∃ e, Import.ofSource source = .error e) ↔ IsRefused source := by
  cases hparse : parse? source with
  | none => simp [Import.ofSource, IsRefused, hparse]
  | some tree =>
    simp [OldStatement.exists_error_iff hparse, IsRefused, hparse, Source.Tree.isOld]

/-- The block for no package. -/
theorem generate_empty (version : String) : Block.generate .empty version =
    "# /// script\n# requires-python = \"".toList ++ version.toList ++ "\"\n# ///".toList := by
  have hlines : Block.generate .empty version = Block.openMarker ++ '\n' ::
      ("# requires-python = \"".toList ++ version.toList ++ ['"'] ++
        '\n' :: Block.closeMarker) := by
    have hversion : Block.versionLine version.toList =
        "# requires-python = \"".toList ++ version.toList ++ ['"'] := rfl
    have hparts : Block.dependencyLines .empty = [] := rfl
    rw [← hversion, Block.generate, hparts, Text.joinWith]
    simp
  have hbegin : "# /// script\n# requires-python = \"".toList =
      Block.openMarker ++ '\n' :: "# requires-python = \"".toList := by decide +kernel
  have hend : "\"\n# ///".toList = ['"', '\n'] ++ Block.closeMarker := by decide +kernel
  rw [hlines, hbegin, hend]
  simp only [List.append_assoc, List.cons_append, List.nil_append]

/-- What a failed analysis shows. -/
theorem isNothing_failure (text : String) : failure.IsNothing [⟨.error, text⟩] where
  imports := rfl
  bundled := rfl
  dependencies := rfl
  failed := rfl
  told := ⟨text, rfl⟩
  block version := ⟨rfl, generate_empty version⟩

/-- What the analysis of a script shows. -/
theorem isAll_ofImports (u : Universe) (imports : List Import) :
    (ofImports u imports).IsAll ((ofImports u imports).imports.map remark) where
  failed := rfl
  told := rfl
  quiet message hmessage := by
    obtain ⟨i, -, rfl⟩ := List.mem_map.1 hmessage
    exact Level.noConfusion

/-- A text gives all or nothing, whatever its name. -/
theorem isAllOrNothing_ofText (u : Universe) (title : String) (source : List Char) :
    IsAllOrNothing (IsRefused source) (ofText u title source).1 (ofText u title source).2 := by
  rw [IsAllOrNothing, ← exists_error_iff_isRefused, ofText]
  cases h : Import.ofSource source with
  | error e => exact .inl ⟨⟨e, rfl⟩, isNothing_failure _⟩
  | ok imports =>
    refine .inr ⟨?_, isAll_ofImports u imports⟩
    rintro ⟨e, he⟩
    cases he

/-! ## Files -/

/-- What is found in the file at a path, and the messages about it. -/
def ofFile (u : Universe) (m : Machine) (path : String) : Analysis × List Message :=
  match m.textAt path with
  | .ok source => ofText u path source
  | .error e => (failure, [⟨.error, s!"Error reading {path}: {e.message}"⟩])

/-- The machine after the analysis of a file: the receiver has taken what it takes of the
messages. -/
def toldOf (sink : Sink) (u : Universe) (m : Machine) (path : String) : Machine :=
  m.after (sink.events (ofFile u m path).2) []

/-- The analysis of a file finds what is in it and reports the messages about it. -/
theorem run_analyzeFile (sink : Sink) (u : Universe) (path : String) (m : Machine) :
    (analyzeFile sink u path).run m = ((ofFile u m path).1, toldOf sink u m path) := by
  cases h : m.textAt path with
  | error e => simp only [analyzeFile, toldOf, ofFile, run_bind, run_readText, h, say, run_sayAll,
      run_pure]
  | ok source => simp only [analyzeFile, analyzeText, toldOf, ofFile, run_bind, run_readText, h,
      run_sayAll, run_pure]

/-- A file gives all or nothing, whatever state it is in. -/
theorem isAllOrNothing_ofFile (u : Universe) (m : Machine) (path : String) :
    IsAllOrNothing (m.LacksScript path) (ofFile u m path).1 (ofFile u m path).2 := by
  rw [IsAllOrNothing, LacksScript, ofFile]
  cases h : m.textAt path with
  | error e => exact .inl ⟨.inl ⟨e, rfl⟩, isNothing_failure _⟩
  | ok source => simpa [IsAllOrNothing] using isAllOrNothing_ofText u path source

/-- An analysis finds all or nothing, of a text and of a file in whatever state, and the block and
the report for a file tell of exactly that. Every receiver is reported the same messages. -/
theorem isAllOrNothing (u : Universe) :
    (∀ source, IsAllOrNothing (IsRefused source) (ofSource u source).1 (ofSource u source).2) ∧
      ∀ (m : Machine) (path version : String), ∃ (analysis : Analysis) (log : List Message),
        IsAllOrNothing (m.LacksScript path) analysis log ∧ ∀ sink : Sink,
          (analyzeFile sink u path).run m = (analysis, m.after (sink.events log) []) ∧
          (blockOfFile sink u version path).run m =
            (analysis.block version, m.after (sink.events log) []) ∧
          (reportOnFile sink u version path).run m =
            (⟨path, version, analysis, String.ofList (analysis.block version), m.clock,
              toolVersion⟩, m.after (sink.events log) []) := by
  refine ⟨isAllOrNothing_ofText u "script", fun m path version => ?_⟩
  refine ⟨_, _, isAllOrNothing_ofFile u m path, fun sink => ?_⟩
  have hrun := run_analyzeFile sink u path m
  refine ⟨hrun, ?_, ?_⟩
  · rw [blockOfFile, run_bind, hrun]
    rfl
  · rw [reportOnFile, run_bind, hrun]
    rfl

/-- A script that executes a text in its last line gives nothing, its first line alone gives all. -/
theorem isAllOrNothing_lines :
    let a : ImportScript.Name := ⟨['a'], rfl, rfl, by decide⟩
    let old := OldScript.text a a a a
    let plain := ImportScript.print ⟨some (.one (.line (.modules ⟨⟨a, []⟩, none⟩ [])))⟩
    String.ofList old = "import a\n" ++ "if a:\n" ++ "    import a\n" ++ "    exec a\n" ∧
      String.ofList plain = "import a\n" ∧
      IsRefused old ∧ (ofSource .bundled old).1.IsNothing (ofSource .bundled old).2 ∧
      ¬ IsRefused plain ∧ (ofSource .bundled plain).1.IsAll (ofSource .bundled plain).2 := by
  intro a old plain
  have hold : IsRefused old := by
    refine .inr ⟨_, OldScript.parse?_text a a a a, ?_⟩
    have hfilter : ((OldScript.tree a a a a).within .start).filter
        (fun x => x.2.isOf .execStatement) =
        [(⟨3, 12⟩, OldScript.execTree (ImportScript.lineGap 1) a)] := rfl
    exact ⟨_, List.mem_of_mem_filter (List.mem_of_mem_head? (congrArg List.head? hfilter)),
      .inr rfl⟩
  have hplain : ¬ IsRefused plain := by
    rw [← exists_error_iff_isRefused]
    rintro ⟨e, he⟩
    rw [ImportScript.ofSource_body _ (by decide)] at he
    cases he
  rcases (isAllOrNothing .bundled).1 old with ⟨-, hnothing⟩ | ⟨hnot, -⟩
  · rcases (isAllOrNothing .bundled).1 plain with ⟨hrefused, -⟩ | ⟨-, hall⟩
    · exact absurd hrefused hplain
    · exact ⟨by decide +kernel, by decide +kernel, hold, hnothing, hplain, hall⟩
  · exact absurd hold hnot

end Analysis

end ScriptDeps
