import ScriptDeps.Proofs.Block.Placement
import ScriptDeps.Proofs.Toml.Reading

/-!
# What is written is what is read back

A generated block without its comment signs is a document of one or two assignments, and so the
block says the version and the packages it was generated from. Main statement: `ofBlock_generate`,
of a block by itself and of the block that is found in a script into which it was put.
-/

namespace ScriptDeps

open Text

namespace Block

/-! ## Taking the comment signs away -/

/-- A comment sign with a blank behind it is taken away. -/
theorem uncomment_hash (s : List Char) : uncomment ('#' :: ' ' :: s) = s := by
  have htrim : trimStart ('#' :: ' ' :: s) = '#' :: ' ' :: s := trimStart_cons (by decide) _
  simp [uncomment, htrim, dropLead?]

/-- A text that needs no escapes between double quotes. -/
def IsLiteral (s : List Char) : Prop := ∀ c ∈ s, Toml.isLiteral c = true

instance (s : List Char) : Decidable (IsLiteral s) :=
  decidable_of_iff (s.all Toml.isLiteral = true) List.all_eq_true

private theorem not_mem_of_isLiteral {s : List Char} (hs : IsLiteral s) {c : Char}
    (hc : Toml.isLiteral c = false) : c ∉ s := by
  intro hmem
  exact absurd (hs c hmem) (by simp [hc])

variable {d : DependencyList} {version : String}

/-- The lines of a generated block, whether or not a newline stands behind it. -/
theorem bareLines_generate (hversion : IsLiteral version.toList)
    (hd : ∀ name ∈ d.names, IsLiteral name.toList) {ending : List Char}
    (hending : ending = [] ∨ ending = ['\n']) :
    bareLines (generate d version ++ ending) =
      openMarker :: (bodyLines d version ++ [closeMarker]) := by
  have hnew : '\n' ∉ version.toList := not_mem_of_isLiteral hversion (by decide)
  have hnames : ∀ name ∈ d.names, '\n' ∉ name.toList := fun name hname =>
    not_mem_of_isLiteral (hd name hname) (by decide)
  have hlines : lines (generate d version ++ ending) =
      (openMarker :: bodyLines d version).map (· ++ ['\n']) ++ [closeMarker ++ ending] := by
    have hgenerate := lines_generate hnew hnames
    rcases hending with rfl | rfl
    · simpa [bodyLines] using hgenerate
    · have hflat : generate d version =
          ((openMarker :: bodyLines d version).map (· ++ ['\n'])).flatten ++ closeMarker := by
        rw [← flatten_lines (generate d version), hgenerate, List.flatten_append]
        simp [bodyLines]
      have hcomplete := complete_of_lines_eq hgenerate
      rw [hflat, List.append_assoc, lines_flatten_append hcomplete,
        lines_append_newline (by decide)]
      rfl
  have hclose : dropEnding (closeMarker ++ ending) = closeMarker := by
    rcases hending with rfl | rfl <;> decide
  have hbare : (openMarker :: bodyLines d version).map (dropEnding ∘ (· ++ ['\n'])) =
      openMarker :: bodyLines d version := by
    refine (List.map_congr_left (g := id) ?_).trans (List.map_id _)
    intro line hline
    apply dropEnding_append_newline
    rcases List.mem_cons.1 hline with rfl | hline
    · decide
    · exact not_mem_of_mem_bodyLines (by decide) (not_mem_of_isLiteral hversion (by decide))
        (fun name hname => not_mem_of_isLiteral (hd name hname) (by decide)) hline
  rw [bareLines, hlines, List.map_append, List.map_map, hbare, List.map_singleton, hclose,
    List.cons_append]

/-- The text of a generated block is that of the lines between its markers. -/
theorem body_generate (hversion : IsLiteral version.toList)
    (hd : ∀ name ∈ d.names, IsLiteral name.toList) {ending : List Char}
    (hending : ending = [] ∨ ending = ['\n']) :
    body (generate d version ++ ending) =
      .ok (joinWith ['\n'] ((bodyLines d version).map uncomment)) := by
  have hopen : isOpen openMarker = true := by decide
  have hcut : cutAt isClose (bodyLines d version ++ [closeMarker]) =
      some (bodyLines d version, closeMarker, []) := by
    exact cutAt_eq_some_iff.2 ⟨rfl, fun line hline => isClose_of_mem_bodyLines hline, by decide⟩
  rw [body, bareLines_generate hversion hd hending]
  simp [hopen, hcut]

/-! ## What the text between the markers says -/

/-- The key of the version. -/
def versionKey : List Char := "requires-python".toList

/-- The key of the packages. -/
def dependenciesKey : List Char := "dependencies".toList

/-- The assignment of the version. -/
def versionAssignment (version : String) : Toml.Assignment where
  key := versionKey
  text := '"' :: (version.toList ++ ['"'])
  value := .string version

/-- The assignment of the packages. -/
def dependenciesAssignment (names : List String) : Toml.Assignment where
  key := dependenciesKey
  text := '[' :: ((names.map fun name => '\n' :: Toml.itemLine name.toList).flatten ++ ['\n', ']'])
  value := .array (names.map .string)

private theorem isKeyLetter_versionKey : ∀ c ∈ versionKey, Toml.isKeyLetter c = true :=
  List.all_eq_true.1 (by decide)

private theorem isKeyLetter_dependenciesKey : ∀ c ∈ dependenciesKey, Toml.isKeyLetter c = true :=
  List.all_eq_true.1 (by decide)

private theorem skipSpace_cons {c : Char} (hc : Toml.isSpace c = false) (s : List Char) :
    Toml.skipSpace (c :: s) = c :: s := by
  simp [Toml.skipSpace, hc]

/-- The version is read. -/
theorem reads_versionAssignment (h : IsLiteral version.toList) :
    (versionAssignment version).Reads where
  key_ne_nil := List.cons_ne_nil _ _
  key_letters := isKeyLetter_versionKey
  text_start rest := skipSpace_cons (by decide) _
  text_value rest hrest := by
    have hvalue := Toml.value?_string h (Toml.depthLimit - 1) rest hrest
    rw [String.ofList_toList] at hvalue
    rw [versionAssignment, List.cons_append, List.append_assoc, List.singleton_append]
    exact hvalue

/-- The packages are read. -/
theorem reads_dependenciesAssignment (h : ∀ name ∈ d.names, IsLiteral name.toList) :
    (dependenciesAssignment d.names).Reads where
  key_ne_nil := List.cons_ne_nil _ _
  key_letters := isKeyLetter_dependenciesKey
  text_start rest := skipSpace_cons (by decide) _
  text_value rest _ := by
    have hitems : ∀ s ∈ d.names.map String.toList, ∀ c ∈ s, Toml.isLiteral c = true := by
      intro s hs
      obtain ⟨name, hname, rfl⟩ := List.mem_map.1 hs
      exact h name hname
    have hvalue := Toml.value?_strings hitems (Toml.depthLimit - 2) rest
    have hlimit : Toml.depthLimit - 2 + 1 = Toml.depthLimit - 1 := by decide
    simp only [hlimit, List.map_map, Function.comp_def, String.ofList_toList] at hvalue
    rw [dependenciesAssignment, List.cons_append, List.append_assoc]
    exact hvalue

private theorem uncomment_versionLine (version : String) :
    uncomment (versionLine version.toList) = (versionAssignment version).line := by
  have hline : versionLine version.toList = '#' :: ' ' :: (versionAssignment version).line := rfl
  rw [hline, uncomment_hash]

private theorem uncomment_dependencyLine (name : List Char) :
    uncomment (dependencyLine name) = Toml.itemLine name := by
  have hline : dependencyLine name = '#' :: ' ' :: Toml.itemLine name := rfl
  rw [hline, uncomment_hash]

/-- The assignments that the text between the markers makes behind that of the version. -/
def laterAssignments (d : DependencyList) : List Toml.Assignment :=
  if d.isEmpty then [] else [dependenciesAssignment d.names]

/-- The lines between the markers without their comment signs are one or two assignments. -/
theorem joinWith_uncomment_bodyLines (d : DependencyList) (version : String) :
    joinWith ['\n'] ((bodyLines d version).map uncomment) =
      (versionAssignment version).line ++
        ((laterAssignments d).map fun a => '\n' :: a.line).flatten := by
  rw [bodyLines, List.map_cons, uncomment_versionLine, joinWith_newline_cons]
  congr 1
  unfold dependencyLines laterAssignments
  split
  · rfl
  · have hopening :
        uncomment "# dependencies = [".toList = dependenciesKey ++ [' ', '=', ' ', '['] := by
      decide
    have hclosing : uncomment "# ]".toList = [']'] := by decide
    have hitems : (d.names.map (dependencyLine ·.toList)).map uncomment =
        d.names.map fun name => Toml.itemLine name.toList := by
      rw [List.map_map]
      exact List.map_congr_left fun name _ => uncomment_dependencyLine name.toList
    rw [List.cons_append, List.map_cons, List.map_append, hopening, hitems, List.map_singleton,
      hclosing]
    simp [Toml.Assignment.line, dependenciesAssignment, Function.comp_def]

end Block

namespace Metadata

open Block

private theorem ofList_versionKey : String.ofList versionKey = "requires-python" := by decide

private theorem ofList_dependenciesKey : String.ofList dependenciesKey = "dependencies" := by decide

private theorem strings?_map (names : List String) :
    (Toml.Value.array (names.map .string)).strings? = some names := by
  rw [Toml.Value.strings?]
  induction names with
  | nil => rfl
  | cons name names ih => simp [Toml.Value.string?, ih]

/-- The text between the markers of a generated block says what the block was generated from. -/
theorem ofToml?_bodyLines {d : DependencyList} {version : String}
    (hversion : IsLiteral version.toList) (hd : ∀ name ∈ d.names, IsLiteral name.toList) :
    ofToml? (joinWith ['\n'] ((bodyLines d version).map uncomment)) =
      some ⟨some version, d.names⟩ := by
  have hread := Toml.read?_assignments (versionAssignment version) (laterAssignments d) ?_ ?_
  · rw [joinWith_uncomment_bodyLines, ofToml?, hread]
    unfold laterAssignments
    split
    · next hempty =>
      have hnames : d.names = [] := List.isEmpty_iff.1 hempty
      simp [versionAssignment, ofList_versionKey, Toml.find?, List.lookup_cons, optional,
        Toml.Value.string?, hnames]
    · simp [versionAssignment, dependenciesAssignment, ofList_versionKey, ofList_dependenciesKey,
        Toml.find?, List.lookup_cons, optional, Toml.Value.string?, strings?_map]
  · intro a ha
    rcases List.mem_cons.1 ha with rfl | ha
    · exact reads_versionAssignment hversion
    · unfold laterAssignments at ha
      split at ha
      · simp at ha
      · obtain rfl := List.mem_singleton.1 ha
        exact reads_dependenciesAssignment hd
  · unfold laterAssignments
    split
    · simp
    · exact (by decide : [String.ofList versionKey, String.ofList dependenciesKey].Nodup)

private theorem ofBlock_generate_append {d : DependencyList} {version : String}
    (hversion : IsLiteral version.toList) (hd : ∀ name ∈ d.names, IsLiteral name.toList)
    {ending : List Char} (hending : ending = [] ∨ ending = ['\n']) :
    ofBlock (generate d version ++ ending) = .ok ⟨some version, d.names⟩ := by
  rw [ofBlock, body_generate hversion hd hending]
  simp only [ofToml?_bodyLines hversion hd]

/-- A block that was generated from a version and packages that need no escapes, and put into any
script, is found there and says just this version and these packages, in their order; and so does
the block by itself. -/
theorem ofBlock_generate {d : DependencyList} {version : String}
    (hversion : IsLiteral version.toList) (hd : ∀ name ∈ d.names, IsLiteral name.toList)
    (content : List Char) :
    (split (reconcile content (generate d version))).hasBlock = true ∧
      ofBlock (split (reconcile content (generate d version))).block =
        .ok ⟨some version, d.names⟩ ∧
      ofBlock (generate d version) = .ok ⟨some version, d.names⟩ := by
  have hnew : '\n' ∉ version.toList := not_mem_of_isLiteral hversion (by decide)
  have hnames : ∀ name ∈ d.names, '\n' ∉ name.toList := fun name hname =>
    not_mem_of_isLiteral (hd name hname) (by decide)
  have hsplit := split_reconcile_eq (isBlock_generate hnew hnames) content
  refine ⟨?_, ?_, ?_⟩
  · rw [hsplit]
    simp [Split.hasBlock]
  · rw [hsplit]
    exact ofBlock_generate_append hversion hd (Or.inr rfl)
  · have hbare := ofBlock_generate_append hversion hd (Or.inl rfl)
    rwa [List.append_nil] at hbare

/-- Two packages and a version are read back from a script whose own block has no end. -/
theorem ofBlock_generate_two :
    let d : DependencyList := ⟨["rich", "numpy"]⟩
    let content := "#!/bin/sh\n# /// script\n".toList
    (split (reconcile content (generate d ">=3.9"))).hasBlock = true ∧
      ofBlock (split (reconcile content (generate d ">=3.9"))).block =
        .ok ⟨some ">=3.9", ["rich", "numpy"]⟩ ∧
      ofBlock (generate d ">=3.9") = .ok ⟨some ">=3.9", ["rich", "numpy"]⟩ :=
  ofBlock_generate (by decide) (by decide) _

end Metadata

end ScriptDeps
