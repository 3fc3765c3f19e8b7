import Mathlib.Data.List.Induction
import ScriptDeps.Analysis.File
import ScriptDeps.Proofs.Analysis.Classification
import ScriptDeps.Proofs.Import.Insertion

/-!
# Updating a script again and again

A block that is put into a script changes nothing that is found in it: it is made of comment lines,
and it stands at the top or behind a first line that is a comment too. Updating a script several
times is therefore updating it once, with the last version. The only scripts that this does not hold
of begin with a byte order mark, behind which a string literal opens, and need some package: the
block takes the mark from the start of the script, which cannot be read any more. Main statement:
`stable_iff`.
-/

namespace ScriptDeps

open Block Source Text

/-! ## Blocks are comments -/

/-- A text without control characters. -/
def IsPlain (text : String) : Prop := ∀ c ∈ text.toList, isControl c = false

instance (text : String) : Decidable (IsPlain text) :=
  decidable_of_iff (text.toList.any isControl = false) (by simp [IsPlain])

/-- The packages of a list have names without control characters. -/
def DependencyList.IsPlain (d : DependencyList) : Prop := ∀ name ∈ d.names, ScriptDeps.IsPlain name

variable {d : DependencyList} {version : String}

private theorem not_mem_of_isPlain {text : String} (h : IsPlain text) {c : Char}
    (hc : isControl c = true) : c ∉ text.toList :=
  not_mem_of_isControl h hc

/-- A generated block is comments. -/
theorem areComments_generate (hversion : IsPlain version) (hd : d.IsPlain) :
    AreComments (openMarker :: bodyLines d version ++ [closeMarker]) (generate d version) := by
  refine ⟨by simp, fun line h => ?_, generate_append_newline d version⟩
  have hnot {c : Char} (hc : isControl c = true) : c ∉ line :=
    not_mem_of_mem_generated hc (not_mem_of_isPlain hversion hc)
      (fun name hname => not_mem_of_isPlain (hd name hname) hc) h
  obtain ⟨body, rfl⟩ := exists_hash_of_mem h
  refine ⟨body, rfl, fun c hc => ⟨?_, ?_⟩⟩
  · rintro rfl
    exact hnot (by decide) (List.mem_cons_of_mem _ hc)
  · rintro rfl
    exact hnot (by decide) (List.mem_cons_of_mem _ hc)

private theorem isBlock_of_isPlain (hversion : IsPlain version) (hd : d.IsPlain) :
    IsBlock (generate d version) :=
  isBlock_generate (not_mem_of_isPlain hversion (by decide))
    fun name hname => not_mem_of_isPlain (hd name hname) (by decide)

/-! ## One block -/

/-- The packages that a script needs. -/
def dependenciesOf (u : Universe) (source : List Char) : DependencyList :=
  (Analysis.ofSource u source).1.dependencies

variable {u : Universe} {s t : List Char}

/-- A block does not change which packages a script without one needs, unless it takes a byte order
mark from the start. -/
theorem dependenciesOf_reconcile (hs : find? s = none) (hmark : ¬OpensBehindMark s)
    (hversion : IsPlain version) (hd : d.IsPlain) :
    dependenciesOf u (reconcile s (generate d version)) = dependenciesOf u s :=
  dependencies_eq_of_downAll u (ofSource_reconcile hs (areComments_generate hversion hd) hmark)

/-- A script whose byte order mark a block hides cannot be read any more. -/
theorem dependenciesOf_reconcile_mark (hs : find? s = none) (hmark : OpensBehindMark s)
    (hversion : IsPlain version) (hd : d.IsPlain) :
    dependenciesOf u (reconcile s (generate d version)) = .empty := by
  simp only [dependenciesOf, Analysis.ofSource, Analysis.ofText,
    ofSource_reconcile_mark hs (areComments_generate hversion hd) hmark]
  rfl

/-! ## Many blocks -/

/-- A script after updates with some versions, one after another. -/
def updatedAll (u : Universe) (versions : List String) (source : List Char) : List Char :=
  versions.foldl (fun text version => updated u version text) source

/-- Updating a script with any versions is updating it once, with the last of them. -/
def UpdatesOnce (u : Universe) (s : List Char) : Prop :=
  ∀ (earlier : List String) (last : String), (∀ v ∈ earlier ++ [last], IsPlain v) →
    updatedAll u (earlier ++ [last]) s = updated u last s

/-- After updates with any versions the packages are those of the script. -/
def KeepsDependencies (u : Universe) (s : List Char) : Prop :=
  ∀ versions : List String, (∀ v ∈ versions, IsPlain v) →
    dependenciesOf u (updatedAll u versions s) = dependenciesOf u s

/-- A text that a block turns into the same text as a script, and that needs the same packages. -/
private structure Fits (u : Universe) (s t : List Char) : Prop where
  /-- The same stands around a block. -/
  surroundings : surroundings t = surroundings s
  /-- The same packages are needed. -/
  dependencies : dependenciesOf u t = dependenciesOf u s

/-- A text that fits a script is updated to what the script is updated to. -/
private theorem updated_of_fits (h : Fits u s t) (version : String) :
    updated u version t = updated u version s := by
  have hblock : (Analysis.ofSource u t).1.block version = (Analysis.ofSource u s).1.block version :=
    congrArg (generate · version) h.dependencies
  rw [updated, updated, hblock, reconcile_eq, reconcile_eq, h.surroundings]

/-- What fits a script still fits it after an update. -/
private theorem fits_updatedAll (hd : (dependenciesOf u s).IsPlain)
    (hkeeps : ∀ v, IsPlain v → dependenciesOf u (updated u v s) = dependenciesOf u s)
    {versions : List String} (hversions : ∀ v ∈ versions, IsPlain v) :
    Fits u s (updatedAll u versions s) := by
  induction versions using List.reverseRecOn with
  | nil => exact ⟨rfl, rfl⟩
  | append_singleton versions v ih =>
    have hv : IsPlain v := hversions v (by simp)
    have hbefore := ih fun w hw => hversions w (List.mem_append_left _ hw)
    have hstep : updatedAll u (versions ++ [v]) s = updated u v s := by
      rw [updatedAll, List.foldl_append, List.foldl_cons, List.foldl_nil]
      exact updated_of_fits hbefore v
    rw [hstep]
    exact ⟨surroundings_reconcile (isBlock_of_isPlain hv hd) s, hkeeps v hv⟩

/-- Where one update keeps the packages, so do many, and the last one counts. -/
private theorem stable_of_keeps (hd : (dependenciesOf u s).IsPlain)
    (hkeeps : ∀ v, IsPlain v → dependenciesOf u (updated u v s) = dependenciesOf u s) :
    UpdatesOnce u s ∧ KeepsDependencies u s := by
  constructor
  · intro earlier last hversions
    have hearlier : Fits u s (updatedAll u earlier s) :=
      fits_updatedAll hd hkeeps fun v hv => hversions v (List.mem_append_left _ hv)
    rw [updatedAll, List.foldl_append, List.foldl_cons, List.foldl_nil]
    exact updated_of_fits hearlier last
  · intro versions hversions
    exact (fits_updatedAll hd hkeeps hversions).dependencies

private theorem isPlain_empty : DependencyList.IsPlain .empty :=
  fun _ hname => absurd hname List.not_mem_nil

private theorem length_lines_generate (hversion : IsPlain version) (hd : d.IsPlain) :
    (lines (generate d version)).length = (dependencyLines d).length + 3 := by
  rw [lines_generate (not_mem_of_isPlain hversion (by decide))
    fun name hname => not_mem_of_isPlain (hd name hname) (by decide)]
  simp [bodyLines]

/-- A block without packages is shorter than one with some. -/
private theorem generate_ne (hversion : IsPlain version) (hd : d.IsPlain) (hsome : d ≠ .empty) :
    generate .empty version ≠ generate d version := by
  intro heq
  have hlength := congrArg List.length (congrArg lines heq)
  rw [length_lines_generate hversion isPlain_empty, length_lines_generate hversion hd] at hlength
  have hnames : d.isEmpty = false := by
    rw [Bool.eq_false_iff]
    intro hempty
    exact hsome (congrArg DependencyList.mk (List.isEmpty_iff.1 hempty))
  obtain ⟨line, others, hlines⟩ : ∃ line others, dependencyLines d = line :: others := by
    rw [dependencyLines, hnames, if_neg Bool.false_ne_true]
    exact ⟨_, _, rfl⟩
  have hnone : dependencyLines .empty = [] := rfl
  rw [hnone, hlines, List.length_nil, List.length_cons] at hlength
  omega

/-- Where a block hides the opening of a string literal, a second one differs from the first. -/
private theorem updatedAll_ne (hs : find? s = none) (hd : (dependenciesOf u s).IsPlain)
    (hmark : OpensBehindMark s) (hsome : dependenciesOf u s ≠ .empty) (hversion : IsPlain version) :
    updatedAll u [version, version] s ≠ updated u version s := by
  intro heq
  have hnone := dependenciesOf_reconcile_mark (u := u) hs hmark hversion hd
  have hfirst : updated u version s = reconcile s (generate (dependenciesOf u s) version) := rfl
  have hsecond : updatedAll u [version, version] s =
      reconcile (updated u version s) (generate .empty version) :=
    congrArg (fun d => reconcile (updated u version s) (generate d version)) hnone
  have hsurroundings := surroundings_reconcile (isBlock_of_isPlain hversion hd) s
  rw [hsecond, hfirst, reconcile_eq, hsurroundings, reconcile_eq] at heq
  simp only [List.append_assoc, List.append_cancel_left_eq] at heq
  exact generate_ne hversion hd hsome (List.append_cancel_right heq)

/-- A script without a block can be updated any number of times as well as once, and goes on to need
the same packages, unless it begins with a byte order mark, behind which a string literal opens, and
needs some package. -/
theorem stable_iff (u : Universe) {s : List Char} (hs : find? s = none)
    (hd : (dependenciesOf u s).IsPlain) :
    (UpdatesOnce u s ↔ ¬(OpensBehindMark s ∧ dependenciesOf u s ≠ .empty)) ∧
      (KeepsDependencies u s ↔ ¬(OpensBehindMark s ∧ dependenciesOf u s ≠ .empty)) := by
  have hstable (hnot : ¬(OpensBehindMark s ∧ dependenciesOf u s ≠ .empty)) :
      UpdatesOnce u s ∧ KeepsDependencies u s := by
    apply stable_of_keeps hd
    intro v hv
    by_cases hmark : OpensBehindMark s
    · have hempty : dependenciesOf u s = .empty := by
        by_contra hsome
        exact hnot ⟨hmark, hsome⟩
      exact (dependenciesOf_reconcile_mark hs hmark hv hd).trans hempty.symm
    · exact dependenciesOf_reconcile hs hmark hv hd
  have hversion : IsPlain ">=3.13" := by decide
  refine ⟨⟨?_, fun hnot => (hstable hnot).1⟩, ⟨?_, fun hnot => (hstable hnot).2⟩⟩
  · rintro honce ⟨hmark, hsome⟩
    refine updatedAll_ne hs hd hmark hsome hversion (honce [">=3.13"] ">=3.13" ?_)
    intro v hv
    rcases List.mem_pair.1 hv with rfl | rfl <;> exact hversion
  · rintro hkeeps ⟨hmark, hsome⟩
    have hkept := hkeeps [">=3.13"] fun v hv => List.mem_singleton.1 hv ▸ hversion
    exact hsome (hkept.symm.trans (dependenciesOf_reconcile_mark hs hmark hversion hd))

/-- A script that does not begin with a byte order mark hides nothing behind one. -/
private theorem not_opensBehindMark {c : Char} (hc : c ≠ '\ufeff') (s : List Char) :
    ¬OpensBehindMark (c :: s) := by
  rintro ⟨t, ht, -⟩
  exact hc (List.cons.inj ht).1

/-- A script that opens a block that is never closed, and needs a package, is stable. -/
theorem stable_iff_open :
    let s := "#!/bin/sh\n# /// script\nimport requests\n".toList
    find? s = none ∧ dependenciesOf .bundled s = ⟨["requests"]⟩ ∧
      (dependenciesOf .bundled s).IsPlain ∧
      UpdatesOnce .bundled s ∧ KeepsDependencies .bundled s := by
  intro s
  have hs : find? s = none := by decide
  have hlines : ∀ line ∈ ["#!/bin/sh".toList, "# /// script".toList], Progress.IsComment line := by
    intro line hline
    rcases List.mem_pair.1 hline with rfl | rfl
    · exact Progress.isComment_cons (by decide)
    · exact Progress.isComment_cons (by decide)
  -- the comment lines change nothing that is found behind them
  have hneeds : dependenciesOf .bundled s = ⟨["requests"]⟩ :=
    (dependencies_eq_of_downAll .bundled (ofSource_of_sameTrees (parse?_behind_comments hlines
      (by simp) (not_opensBehindMark (by decide) "mport requests\n".toList)))).trans
      Analysis.dependencies_requests
  have hd : (dependenciesOf .bundled s).IsPlain := by
    rw [hneeds]
    intro name hname
    rw [List.mem_singleton.1 hname]
    decide
  have hmark : ¬OpensBehindMark s := not_opensBehindMark (by decide) _
  have hiff := stable_iff .bundled hs hd
  exact ⟨hs, hneeds, hd, hiff.1.2 fun h => hmark h.1, hiff.2.2 fun h => hmark h.1⟩

end ScriptDeps
