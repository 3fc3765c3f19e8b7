import Mathlib.Data.Finset.Sort
import ScriptDeps.Block.Metadata
import ScriptDeps.Proofs.Analysis.Classification
import ScriptDeps.Report
import ScriptDeps.Runner

/-!
# Lists of packages and what is written from them

A list of packages that is made from names has each of them once and in order, so that all that is
written from it depends on the set of the names alone. A list that is read from data is the list
that stands there, which is in order only if it is in order there. Main statement:
`standsFor_iff_ascending`.
-/

namespace ScriptDeps.DependencyList

variable {names : Finset String} {d : DependencyList}

/-- A list of packages stands for a set of names: it has these names in the order of their bytes,
and what is written from it is written from the set. -/
structure StandsFor (names : Finset String) (d : DependencyList) : Prop where
  /-- The names are in the order of their bytes, and none stands there twice. -/
  ascending : Analysis.Ascending d.names
  /-- The packages are the names of the set. -/
  contains_iff : ∀ name, d.contains name = true ↔ name ∈ names
  /-- There are as many as there are names. -/
  size_eq : d.size = names.card
  /-- They are displayed with commas between them. -/
  display_eq : d.display = ", ".intercalate names.sort
  /-- A block has a line for each of them, and no list if there is none. -/
  block_eq : ∀ version : String, Block.generate d version =
    Text.joinWith ['\n'] ([Block.openMarker, Block.versionLine version.toList] ++
      (if names = ∅ then [] else ["# dependencies = [".toList] ++
        names.sort.map (fun name => Block.dependencyLine name.toList) ++ ["# ]".toList]) ++
      [Block.closeMarker])
  /-- A runner is given each of them in front of the script. -/
  arguments_eq : ∀ (script : String) (arguments : List String), runArguments script d arguments =
    ["run"] ++ names.sort.flatMap (fun name => ["--with", name]) ++ script :: arguments

/-- The names of a set in the order of their bytes. -/
theorem ascending_sort (names : Finset String) : Analysis.Ascending names.sort :=
  names.sortedLT_sort.pairwise.imp Text.lt_iff_encode_lt.1

/-- There is one list in the order of bytes for each set of names. -/
theorem eq_sort_of_ascending {l : List String} (h : Analysis.Ascending l)
    (hmem : ∀ name, name ∈ l ↔ name ∈ names) : l = names.sort :=
  List.Pairwise.eq_of_mem_iff (h.imp Text.lt_iff_encode_lt.2) names.sortedLT_sort.pairwise
    fun {name} => (hmem name).trans (Finset.mem_sort (· ≤ ·)).symm

/-- A set of names in the order of their bytes stands for the set. -/
theorem standsFor_sort (names : Finset String) : StandsFor names ⟨names.sort⟩ where
  ascending := ascending_sort names
  contains_iff name := by simp [contains]
  size_eq := names.length_sort (· ≤ ·)
  display_eq := rfl
  block_eq version := by
    have hempty : (DependencyList.mk names.sort).isEmpty = decide (names = ∅) := by
      rw [isEmpty, Bool.eq_iff_iff, List.isEmpty_iff, ← List.length_eq_zero_iff, Finset.length_sort,
        Finset.card_eq_zero, decide_eq_true_iff]
    rw [Block.generate, Block.dependencyLines, hempty]
    by_cases hnames : names = ∅
    · rw [if_pos (decide_eq_true hnames), if_pos hnames]
      rfl
    · rw [if_neg (by simpa using hnames), if_neg hnames]
      rfl
  arguments_eq script arguments := rfl

/-- A list that has the names of a set in the order of their bytes stands for the set. -/
theorem standsFor_of_ascending (h : Analysis.Ascending d.names)
    (hmem : ∀ name, name ∈ d.names ↔ name ∈ names) : StandsFor names d := by
  have hsort : d = ⟨names.sort⟩ := congrArg DependencyList.mk (eq_sort_of_ascending h hmem)
  exact hsort ▸ standsFor_sort names

/-- The list of no package stands for no name, and a list made from names for the set of these
names. A list that is read from data has the names that stand there in the order in which they
stand, and stands for the set of them exactly if that is the order of their bytes. -/
theorem standsFor_iff_ascending (collected : List String) (text : List Char) (given : List String) :
    StandsFor ∅ empty ∧ StandsFor collected.toFinset (ofNames collected) ∧
      ((Data.Json.read? text).bind Data.strings? = some given →
        ∃ d, (Data.Json.read? text).bind ofData? = some d ∧ d.names = given ∧
          (StandsFor given.toFinset d ↔ Analysis.Ascending given)) := by
  refine ⟨standsFor_of_ascending .nil (by simp [empty]), ?_, fun h =>
    ⟨⟨given⟩, ?_, rfl, StandsFor.ascending, fun hascending => ?_⟩⟩
  · refine standsFor_of_ascending (Analysis.ascending_ofList collected) fun name => ?_
    rw [mem_ofNames, List.mem_toFinset]
  · obtain ⟨data, hdata, hgiven⟩ := Option.bind_eq_some_iff.1 h
    rw [hdata, Option.bind_some, ofData?, hgiven]
    rfl
  · exact standsFor_of_ascending hascending fun name => List.mem_toFinset.symm

/-- A list that stands in data in another order and with a name twice is read as it stands there,
and does not stand for the set of its names. -/
theorem not_standsFor_unordered :
    (Data.Json.read? "[\"b\",\"a\",\"b\"]".toList).bind Data.strings? = some ["b", "a", "b"] ∧
      ∃ d, (Data.Json.read? "[\"b\",\"a\",\"b\"]".toList).bind ofData? = some d ∧ d.size = 3 ∧
        d.display = "b, a, b" ∧ ¬StandsFor {"a", "b"} d := by
  have hread : (Data.Json.read? "[\"b\",\"a\",\"b\"]".toList).bind Data.strings? =
      some ["b", "a", "b"] := by decide +kernel
  obtain ⟨⟨_⟩, hd, rfl, hiff⟩ := (standsFor_iff_ascending [] _ _).2.2 hread
  have hnames : ["b", "a", "b"].toFinset = {"a", "b"} := by decide
  have hnot : ¬Analysis.Ascending ["b", "a", "b"] := by
    unfold Analysis.Ascending
    decide
  rw [hnames] at hiff
  exact ⟨hread, _, hd, rfl, by decide +kernel, hiff.not.2 hnot⟩

end ScriptDeps.DependencyList
