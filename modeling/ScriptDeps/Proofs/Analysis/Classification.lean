import Mathlib.Data.List.Forall2
import ScriptDeps.Analysis
import ScriptDeps.Proofs.ImportScript.Extraction
import ScriptDeps.Proofs.Text.Order

/-!
# What an analysis consists of

One pass over the imports of a script gives the imports with their origins, the modules that need
no installation, the packages to install and the messages. Everything is told by the first
components of the imports: those that are known, those that are not, and the imports that have none.
Main statement: `isExact_ofSource`.
-/

namespace ScriptDeps

variable {u : Universe} {imports : List Import} {source : List Char}

/-! ## One import -/

namespace Universe

/-- A universe contains the names in its list. -/
@[simp] theorem contains_iff {name : String} : u.contains name = true ↔ name ∈ u.names.toList := by
  simp [contains, NameSet.contains]

/-- The second import is the first one with the answer where its module comes from. -/
structure Classifies (u : Universe) (i j : Import) : Prop where
  /-- Nothing but the origin differs. -/
  others : { j with origin := i.origin } = i
  /-- A path of dots alone stays inside the package of the script. -/
  here_iff : j.origin = .here ↔ i.topLevel = none
  /-- A known first component needs no installation. -/
  bundled_iff : j.origin = .bundled ↔ ∃ name ∈ u.names.toList, i.topLevel = some name
  /-- Any other first component is that of a package. -/
  external_iff : j.origin = .external ↔ ∃ name ∉ u.names.toList, i.topLevel = some name
  /-- There is an answer. -/
  known : j.origin ≠ .unknown

/-- A module that is known needs no installation. -/
theorem originOf_some_eq_bundled_iff {name : String} :
    u.originOf (some name) = .bundled ↔ name ∈ u.names.toList := by
  rw [originOf, ← contains_iff]
  split <;> simp_all

/-- A module that is not known is that of a package. -/
theorem originOf_some_eq_external_iff {name : String} :
    u.originOf (some name) = .external ↔ name ∉ u.names.toList := by
  rw [originOf, ← contains_iff]
  split <;> simp_all

/-- Classification answers where the module comes from and keeps all else. -/
theorem classifies_classify (u : Universe) (i : Import) : u.Classifies i (u.classify i) := by
  have horigin : (u.classify i).origin = u.originOf i.topLevel := rfl
  cases htop : i.topLevel with
  | none =>
    rw [htop] at horigin
    refine ⟨rfl, ?_, ?_, ?_, ?_⟩ <;> simp [horigin, originOf, htop]
  | some name =>
    rw [htop] at horigin
    have hbundled : u.originOf (some name) = .bundled ↔ name ∈ u.names.toList :=
      originOf_some_eq_bundled_iff
    have hexternal : u.originOf (some name) = .external ↔ name ∉ u.names.toList :=
      originOf_some_eq_external_iff
    refine ⟨rfl, ?_, ?_, ?_, ?_⟩
    · rw [horigin, originOf]
      split <;> simp [htop]
    · simp [horigin, hbundled, htop]
    · simp [horigin, hexternal, htop]
    · rw [horigin, originOf]
      split <;> simp

end Universe

/-! ## All imports -/

namespace Analysis

/-- The first components of an origin are those that the classification gives this origin. -/
theorem mem_namesOf {origin : Import.Origin} {name : String} :
    name ∈ namesOf origin (imports.map u.classify) ↔
      u.originOf (some name) = origin ∧ ∃ i ∈ imports, i.topLevel = some name := by
  simp only [namesOf, List.mem_filterMap, List.mem_filter, List.mem_map, beq_iff_eq]
  constructor
  · rintro ⟨_, ⟨⟨i, hi, rfl⟩, rfl⟩, htop⟩
    have htop : i.topLevel = some name := htop
    exact ⟨congrArg u.originOf htop.symm, i, hi, htop⟩
  · rintro ⟨rfl, i, hi, htop⟩
    exact ⟨u.classify i, ⟨⟨i, hi, rfl⟩, congrArg u.originOf htop⟩, htop⟩

/-- The first components of an origin depend on the first components of all imports alone. -/
theorem namesOf_map_classify (u : Universe) (origin : Import.Origin) (imports : List Import) :
    namesOf origin (imports.map u.classify) =
      (imports.filterMap Import.topLevel).filter fun name => u.originOf (some name) == origin := by
  induction imports with
  | nil => rfl
  | cons i imports ih =>
    have horigin : (u.classify i).origin = u.originOf i.topLevel := rfl
    have htopLevel : (u.classify i).topLevel = i.topLevel := rfl
    rw [namesOf] at ih
    rw [namesOf, List.map_cons, List.filter_cons, horigin, List.filterMap_cons]
    cases htop : i.topLevel with
    | none =>
      rw [← ih]
      split
      · rw [List.filterMap_cons_none (htopLevel.trans htop)]
      · rfl
    | some name =>
      rw [List.filter_cons, ← ih]
      split
      · rw [List.filterMap_cons_some (htopLevel.trans htop)]
      · rfl

/-- What is found in imports, but for the imports themselves, depends on their first components
alone. -/
theorem ofImports_congr (u : Universe) {imports others : List Import}
    (h : imports.filterMap Import.topLevel = others.filterMap Import.topLevel) :
    (ofImports u imports).bundled = (ofImports u others).bundled ∧
      (ofImports u imports).dependencies = (ofImports u others).dependencies := by
  simp only [ofImports, namesOf_map_classify, h, and_self]

/-- Names in the ascending order of their bytes. -/
def Ascending (names : List String) : Prop :=
  names.Pairwise fun a b => Text.encode a.toList < Text.encode b.toList

/-- The names of a set are in the order of their bytes. -/
theorem ascending_ofList (names : List String) : Ascending (NameSet.ofList names).toList :=
  (NameSet.ofList names).ascending.imp Text.lt_iff_encode_lt.1

/-- The packages that a script needs are in order, whether or not it can be read. -/
theorem ascending_dependencies (u : Universe) (source : List Char) :
    Ascending (ofSource u source).1.dependencies.names := by
  rw [ofSource, ofText]
  cases Import.ofSource source with
  | error e => exact .nil
  | ok imports => exact ascending_ofList _

/-- An analysis and its messages are what the classification of the imports of a script says. -/
structure IsExact (u : Universe) (source : List Char) (imports : List Import)
    (analysis : Analysis) (log : List Message) : Prop where
  /-- The script could be read. -/
  read : analysis.failed = false
  /-- The imports are those of the script in the same order, each with its origin. -/
  origins : List.Forall₂ u.Classifies imports analysis.imports
  /-- The modules that need no installation are in order. -/
  bundled_ascending : Ascending analysis.bundled
  /-- The modules that need no installation are the first components that are known. -/
  mem_bundled : ∀ name, name ∈ analysis.bundled ↔
    name ∈ u.names.toList ∧ ∃ i ∈ imports, i.topLevel = some name
  /-- The packages are in order. -/
  dependencies_ascending : Ascending analysis.dependencies.names
  /-- The packages are those of the first components that are not known. -/
  mem_dependencies : ∀ package, package ∈ analysis.dependencies.names ↔
    ∃ name ∉ u.names.toList, (∃ i ∈ imports, i.topLevel = some name) ∧ packageOf name = package
  /-- The names of the two origins are the names that the script imports. -/
  topLevelNames : ∃ names, Import.topLevelNames source = .ok names ∧ Ascending names ∧
    ∀ name, name ∈ names ↔ name ∈ analysis.bundled ∨ name ∈ namesOf .external analysis.imports
  /-- No name has two origins. -/
  apart : ∀ name ∈ analysis.bundled, name ∉ namesOf .external analysis.imports
  /-- There is one message for each import, in the same order. -/
  messages : log = analysis.imports.map remark
  /-- Every message is a detail. -/
  details : ∀ message ∈ log, message.level = .verbose

/-- The analysis of a script that can be read is the classification of its imports. -/
theorem isExact_ofSource (u : Universe) (h : Import.ofSource source = .ok imports) :
    IsExact u source imports (ofSource u source).1 (ofSource u source).2 := by
  have hanalysis : ofSource u source =
      (ofImports u imports, (ofImports u imports).imports.map remark) := by
    rw [ofSource, ofText, h]
  have hmem : ∀ name, name ∈ (ofImports u imports).bundled ↔
      name ∈ u.names.toList ∧ ∃ i ∈ imports, i.topLevel = some name := by
    intro name
    simp only [ofImports, NameSet.mem_ofList, mem_namesOf, Universe.originOf_some_eq_bundled_iff]
  have hexternal : ∀ name, name ∈ namesOf .external (ofImports u imports).imports ↔
      name ∉ u.names.toList ∧ ∃ i ∈ imports, i.topLevel = some name := by
    intro name
    simp only [ofImports, mem_namesOf, Universe.originOf_some_eq_external_iff]
  rw [hanalysis]
  refine ⟨rfl, ?_, ascending_ofList _, hmem, ascending_ofList _, ?_, ?_, ?_, rfl, ?_⟩
  · exact List.forall₂_map_right_iff.2 (List.forall₂_same.2 fun i _ => u.classifies_classify i)
  · intro package
    simp only [ofImports, DependencyList.mem_ofNames, List.mem_map, mem_namesOf,
      Universe.originOf_some_eq_external_iff, and_assoc]
  · refine ⟨_, by rw [Import.topLevelNames, h], ascending_ofList _, fun name => ?_⟩
    rw [hmem, hexternal, NameSet.mem_ofList, List.mem_filterMap]
    by_cases hknown : name ∈ u.names.toList <;> simp [hknown]
  · intro name hname
    rw [hexternal]
    exact fun hnot => hnot.1 ((hmem name).1 hname).1
  · intro message hmessage
    obtain ⟨i, _, rfl⟩ := List.mem_map.1 hmessage
    rfl

/-- A script that is one import needs the package of the module, unless the module is known. -/
theorem dependencies_of_single {i : Import} {name : String}
    (h : Import.ofSource source = .ok [i]) (htop : i.topLevel = some name) :
    (ofSource u source).1.dependencies =
      if u.contains name then .empty else .ofNames [packageOf name] := by
  have hexternal : namesOf .external [u.classify i] = if u.contains name then [] else [name] := by
    have hall := namesOf_map_classify u .external [i]
    rw [List.map_singleton, List.filterMap_cons_some htop, List.filterMap_nil] at hall
    rw [hall, List.filter_singleton, Universe.originOf]
    cases u.contains name <;> rfl
  rw [ofSource, ofText, h]
  simp only [ofImports, List.map_singleton, hexternal]
  cases u.contains name <;> rfl

/-- A script that imports one module whose package has the name of the module. -/
theorem dependencies_requests :
    (ofSource .bundled "import requests\n".toList).1.dependencies = ⟨["requests"]⟩ := by
  let requests : ImportScript.Name := ⟨"requests".toList, rfl, rfl, by decide⟩
  let i : Import := ⟨"requests", [], .module, 1, 7, "import requests", .unknown, none⟩
  have htop : i.topLevel = some "requests" := by decide
  have hsource : Import.ofSource "import requests\n".toList = .ok [i] :=
    ImportScript.ofSource_body (.one (.line (.modules ⟨⟨requests, []⟩, none⟩ []))) (by decide)
  have hunknown : ¬Universe.bundled.contains "requests" = true := by
    rw [Universe.contains_iff, Universe.bundled, NameSet.mem_ofList]
    decide +kernel
  rw [dependencies_of_single hsource htop, if_neg hunknown]
  decide +kernel

/-- A script that imports a module of the standard library and one of a package. -/
theorem isExact_ofSource_two :
    let source := "import os, attr\n".toList
    let imports : List Import :=
      [⟨"os", [], .module, 1, 7, "import os, attr", .unknown, none⟩,
        ⟨"attr", [], .module, 1, 11, "import os, attr", .unknown, none⟩]
    Import.ofSource source = .ok imports ∧ IsExact .bundled source imports
      (ofSource .bundled source).1 (ofSource .bundled source).2 := by
  let os : ImportScript.Name := ⟨['o', 's'], rfl, rfl, by decide⟩
  let attr : ImportScript.Name := ⟨['a', 't', 't', 'r'], rfl, rfl, by decide⟩
  have h := ImportScript.ofSource_body
    (.one (.line (.modules ⟨⟨os, []⟩, none⟩ [⟨⟨attr, []⟩, none⟩]))) (by decide)
  exact ⟨h, isExact_ofSource .bundled h⟩

end Analysis

end ScriptDeps
