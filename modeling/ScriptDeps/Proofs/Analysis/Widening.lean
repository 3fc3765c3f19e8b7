import ScriptDeps.Proofs.Analysis.Classification
import ScriptDeps.Proofs.Host.Steps
import ScriptDeps.Proofs.Text.Utf8

/-!
# More known modules

The more modules are known, the fewer packages a script needs. Only imports of packages change, to
imports of modules that need no installation, and a package is dropped once every name that asks for
it is known. What an interpreter tells is added to what is known without asking, so that asking one
never makes a script need more. Main statement: `Analysis.narrows_of_subset`.
-/

namespace ScriptDeps

variable {u v : Universe} {imports : List Import} {name package : String}

/-! ## Universes -/

namespace Universe

/-- Every module that the first universe knows is known to the second. -/
instance : HasSubset Universe := ⟨fun u v => u.names.toList ⊆ v.names.toList⟩

/-- An extended universe has its modules and the names. -/
theorem mem_extend {names : List String} :
    name ∈ (u.extend names).names.toList ↔ name ∈ u.names.toList ∨ name ∈ names :=
  NameSet.mem_foldl_insert names u.names

/-- A universe has all its own modules. -/
theorem subset_refl (u : Universe) : u ⊆ u := List.Subset.refl _

/-- More names take no module away. -/
theorem subset_extend (u : Universe) (names : List String) : u ⊆ u.extend names :=
  fun _ hname => mem_extend.2 (.inl hname)

/-- An interpreter that answers adds to what is known without asking. -/
theorem bundled_subset_of_ofOutcome {interpreter : String} {outcome : Outcome}
    (h : ofOutcome interpreter outcome = .ok u) : bundled ⊆ u := by
  unfold ofOutcome at h
  split at h
  · cases h
  · cases hanswer : Text.decode outcome.stdout with
    | error e => simp [hanswer] at h
    | ok answer =>
      rw [hanswer] at h
      cases h
      exact subset_extend _ _

/-- Probing an interpreter gives the modules that it names. -/
theorem fst_run_probe (interpreter : String) (m : Machine) :
    ((probe interpreter).run m).1 = m.modulesOf (some interpreter) :=
  congrArg Prod.fst (Machine.run_universeFor (some interpreter) m)

/-- Whether or not an interpreter is asked, what is known without asking is known. -/
theorem bundled_subset_of_modulesOf {m : Machine} {interpreter : Option String}
    (h : m.modulesOf interpreter = .ok u) : bundled ⊆ u := by
  cases interpreter with
  | none =>
    have hbundled : bundled = u := Except.ok.inj h
    exact hbundled ▸ subset_refl bundled
  | some interpreter =>
    cases houtcome : m.outcomeOf interpreter probeArguments with
    | error e => simp [Machine.modulesOf, houtcome] at h
    | ok outcome =>
      simp only [Machine.modulesOf, houtcome] at h
      exact bundled_subset_of_ofOutcome h

/-! ## One import -/

/-- The second import is the first one looked up again where the modules of `v` are known, some of
which were not known before. -/
structure Reclassifies (v : Universe) (i j : Import) : Prop where
  /-- Nothing but the origin differs. -/
  others : { j with origin := i.origin } = i
  /-- No import leaves the package of the script, and none moves into it. -/
  here_iff : j.origin = .here ↔ i.origin = .here
  /-- What needed no installation still needs none, and neither does a module known by now. -/
  bundled_iff : j.origin = .bundled ↔ i.origin = .bundled ∨
    i.origin = .external ∧ ∃ name ∈ v.names.toList, i.topLevel = some name
  /-- What is still to be installed was to be installed before. -/
  external_iff : j.origin = .external ↔ i.origin = .external ∧
    ∃ name ∉ v.names.toList, i.topLevel = some name

/-- Classification where more modules are known changes imports of packages alone. -/
theorem reclassifies_classify (h : u ⊆ v) (i : Import) :
    v.Reclassifies (u.classify i) (v.classify i) := by
  have hu := u.classifies_classify i
  have hv := v.classifies_classify i
  have htop : (u.classify i).topLevel = i.topLevel := rfl
  refine ⟨rfl, hv.here_iff.trans hu.here_iff.symm, ?_, ?_⟩
  · rw [hv.bundled_iff, hu.bundled_iff, hu.external_iff, htop]
    constructor
    · rintro ⟨name, hname, hi⟩
      by_cases hknown : name ∈ u.names.toList
      · exact .inl ⟨name, hknown, hi⟩
      · exact .inr ⟨⟨name, hknown, hi⟩, name, hname, hi⟩
    · rintro (⟨name, hname, hi⟩ | ⟨-, hnew⟩)
      · exact ⟨name, h hname, hi⟩
      · exact hnew
  · rw [hv.external_iff, hu.external_iff, htop]
    constructor
    · rintro ⟨name, hname, hi⟩
      exact ⟨⟨name, fun hknown => hname (h hknown), hi⟩, name, hname, hi⟩
    · exact And.right

end Universe

/-! ## All imports -/

namespace Analysis

/-- The bundled modules are the first components that are known. -/
theorem mem_bundled_ofImports : name ∈ (ofImports u imports).bundled ↔
    name ∈ u.names.toList ∧ ∃ i ∈ imports, i.topLevel = some name := by
  simp only [ofImports, NameSet.mem_ofList, mem_namesOf, Universe.originOf_some_eq_bundled_iff]

/-- The external ones are the first components that are not known. -/
theorem mem_external_ofImports : name ∈ namesOf .external (ofImports u imports).imports ↔
    name ∉ u.names.toList ∧ ∃ i ∈ imports, i.topLevel = some name := by
  simp only [ofImports, mem_namesOf, Universe.originOf_some_eq_external_iff]

/-- The packages are those of the names that are not known. -/
theorem mem_dependencies_ofImports : package ∈ (ofImports u imports).dependencies.names ↔
    ∃ name ∈ namesOf .external (ofImports u imports).imports, packageOf name = package := by
  simp only [ofImports, DependencyList.mem_ofNames, List.mem_map]

/-- The second analysis is the first one made again where the modules of `v` are known, some of
which were not known before. -/
structure Narrows (v : Universe) (first second : Analysis) : Prop where
  /-- Both fail or neither does. -/
  failed : second.failed = first.failed
  /-- The imports are the same but for origins, and those of packages alone change. -/
  imports : List.Forall₂ v.Reclassifies first.imports second.imports
  /-- No package is needed that was not needed before. -/
  dependencies : second.dependencies.names ⊆ first.dependencies.names
  /-- Every module that needed no installation still needs none. -/
  bundled : first.bundled ⊆ second.bundled
  /-- A package is dropped exactly when all the names that asked for it are known. -/
  dropped_iff : ∀ package ∈ first.dependencies.names, package ∉ second.dependencies.names ↔
    ∀ name ∈ namesOf .external first.imports, packageOf name = package → name ∈ v.names.toList

/-- Nothing can be taken away from an analysis that failed. -/
theorem narrows_failure (v : Universe) : Narrows v failure failure where
  failed := rfl
  imports := .nil
  dependencies := List.Subset.refl _
  bundled := List.Subset.refl _
  dropped_iff _ hpackage := absurd hpackage List.not_mem_nil

/-- Imports looked up among more known modules need no more packages. -/
theorem narrows_ofImports (h : u ⊆ v) (imports : List Import) :
    Narrows v (ofImports u imports) (ofImports v imports) := by
  have hexternal : ∀ name ∈ namesOf .external (ofImports v imports).imports,
      name ∈ namesOf .external (ofImports u imports).imports := by
    intro name hname
    obtain ⟨hnew, himport⟩ := mem_external_ofImports.1 hname
    exact mem_external_ofImports.2 ⟨fun hknown => hnew (h hknown), himport⟩
  refine ⟨rfl, ?_, ?_, ?_, fun package _ => ?_⟩
  · exact List.forall₂_map_left_iff.2 (List.forall₂_map_right_iff.2
      (List.forall₂_same.2 fun i _ => Universe.reclassifies_classify h i))
  · intro package hpackage
    obtain ⟨name, hname, rfl⟩ := mem_dependencies_ofImports.1 hpackage
    exact mem_dependencies_ofImports.2 ⟨name, hexternal name hname, rfl⟩
  · intro name hname
    obtain ⟨hknown, himport⟩ := mem_bundled_ofImports.1 hname
    exact mem_bundled_ofImports.2 ⟨h hknown, himport⟩
  · rw [mem_dependencies_ofImports]
    constructor
    · intro hdropped name hname hname'
      by_contra hnew
      obtain ⟨-, himport⟩ := mem_external_ofImports.1 hname
      exact hdropped ⟨name, mem_external_ofImports.2 ⟨hnew, himport⟩, hname'⟩
    · rintro hall ⟨name, hname, hname'⟩
      exact (mem_external_ofImports.1 hname).1 (hall name (hexternal name hname) hname')

/-- A text of any name needs no more packages where more modules are known. -/
theorem narrows_ofText (h : u ⊆ v) (title : String) (source : List Char) :
    Narrows v (ofText u title source).1 (ofText v title source).1 := by
  unfold ofText
  cases Import.ofSource source with
  | error e => exact narrows_failure v
  | ok imports => exact narrows_ofImports h imports

/-- Where more modules are known, an analysis narrows, whatever the text; and asking an interpreter
narrows every analysis against what is known without asking. -/
theorem narrows_of_subset (title : String) (source : List Char) :
    (∀ u v : Universe, u ⊆ v → Narrows v (ofText u title source).1 (ofText v title source).1) ∧
      ∀ (m : Machine) (interpreter : String) (u : Universe),
        ((probe interpreter).run m).1 = .ok u →
          Narrows u (ofText .bundled title source).1 (ofText u title source).1 := by
  refine ⟨fun u v h => narrows_ofText h title source, fun m interpreter u hu => ?_⟩
  rw [Universe.fst_run_probe] at hu
  exact narrows_ofText (Universe.bundled_subset_of_modulesOf hu) title source

/-- A machine with an interpreter that names two modules of one package. -/
def namingHost : Machine where
  files := ⟨[(["py"], .file [] ⟨true, true, some fun _ _ =>
    ⟨Text.encode "attr\n\nattrs\n".toList, [], .exited 0⟩⟩)]⟩
  directory := []
  searchPath := [[]]
  network := fun _ => .error .unreachable
  copyPath := "/tmp/copy.py"
  clock := ""
  events := []
  calls := []

/-- That interpreter adds the two modules to those that are known without it. -/
theorem probe_namingHost : ((probe "py").run namingHost).1 =
    .ok ((Universe.bundled.extend ["attr"]).extend ["attrs"]) := by
  have houtcome : namingHost.outcomeOf "py" probeArguments =
      .ok ⟨Text.encode "attr\n\nattrs\n".toList, [], .exited 0⟩ := by decide +kernel
  have hnames : namesInAnswer "attr\n\nattrs\n".toList = ["attr", "attrs"] := by decide +kernel
  have hsuccess : (ExitStatus.exited 0).isSuccess = true := rfl
  have hmodules : namingHost.modulesOf (some "py") =
      .ok (Universe.bundled.extend ["attr", "attrs"]) := by
    simp only [Machine.modulesOf, houtcome, Universe.ofOutcome, hsuccess, Text.decode_encode,
      hnames, Bool.not_true, Bool.false_eq_true, if_false]
  have htwice (u : Universe) : (u.extend ["attr"]).extend ["attrs"] = u.extend ["attr", "attrs"] :=
    rfl
  rw [htwice, Universe.fst_run_probe, hmodules]

/-- A package that two names ask for is dropped when both are known, and not when one is. -/
theorem narrows_of_subset_attrs :
    let half := Universe.bundled.extend ["attr"]
    let whole := half.extend ["attrs"]
    let packages := fun u => (ofText u "script" "import attr, attrs\n".toList).1.dependencies.names
    half ⊆ whole ∧ ((probe "py").run namingHost).1 = .ok whole ∧
      "attrs" ∈ packages .bundled ∧ "attrs" ∈ packages half ∧
      packages whole ⊆ packages half ∧ "attrs" ∉ packages whole := by
  intro half whole packages
  let attr : ImportScript.Name := ⟨"attr".toList, rfl, rfl, by decide⟩
  let attrs : ImportScript.Name := ⟨"attrs".toList, rfl, rfl, by decide⟩
  let imports : List Import :=
    [⟨"attr", [], .module, 1, 7, "import attr, attrs", .unknown, none⟩,
      ⟨"attrs", [], .module, 1, 13, "import attr, attrs", .unknown, none⟩]
  have hsource : Import.ofSource "import attr, attrs\n".toList = .ok imports :=
    ImportScript.ofSource_body
      (.one (.line (.modules ⟨⟨attr, []⟩, none⟩ [⟨⟨attrs, []⟩, none⟩]))) (by decide)
  have hfound : ∀ u, (ofText u "script" "import attr, attrs\n".toList).1 = ofImports u imports := by
    intro u
    rw [ofText, hsource]
  have hsubset : half ⊆ whole := Universe.subset_extend half _
  have hall := narrows_of_subset "script" "import attr, attrs\n".toList
  have hsecond := hall.1 half whole hsubset
  have hfirst := hall.2 namingHost "py" whole probe_namingHost
  have hunknown : "attrs" ∉ half.names.toList := by
    rw [Universe.mem_extend, Universe.bundled, NameSet.mem_ofList]
    decide +kernel
  have himport : ∃ i ∈ imports, i.topLevel = some "attrs" :=
    ⟨_, List.mem_cons_of_mem _ List.mem_cons_self, rfl⟩
  have hpackage : packageOf "attrs" = "attrs" := by decide +kernel
  have hneeded (u : Universe) (hu : "attrs" ∉ u.names.toList) : "attrs" ∈ packages u := by
    simp only [packages, hfound, mem_dependencies_ofImports, mem_external_ofImports]
    exact ⟨"attrs", ⟨hu, himport⟩, hpackage⟩
  have hbundled := hneeded .bundled fun hknown => hunknown (Universe.subset_extend _ _ hknown)
  refine ⟨hsubset, probe_namingHost, hbundled, hneeded half hunknown, hsecond.dependencies,
    (hfirst.dropped_iff _ hbundled).2 fun name hname _ => ?_⟩
  rw [hfound, mem_external_ofImports] at hname
  obtain ⟨-, i, hi, htop⟩ := hname
  rcases List.mem_cons.1 hi with rfl | hi
  · obtain rfl : "attr" = name := Option.some.inj htop
    exact hsubset (Universe.mem_extend.2 (.inr List.mem_cons_self))
  · obtain rfl := List.mem_singleton.1 hi
    obtain rfl : "attrs" = name := Option.some.inj htop
    exact Universe.mem_extend.2 (.inr List.mem_cons_self)

end Analysis

end ScriptDeps
