import ScriptDeps.Proofs.Analysis.Classification
import ScriptDeps.Proofs.Import.Components
import ScriptDeps.Proofs.ImportScript.Spaced

/-!
# Names that scripts import

The names that a script imports are the first components of its module paths. They are identifiers
exactly if all these paths are close, and then they do not depend on the gaps in the script: neither
do the modules that need no installation, nor the packages that do. Main statement:
`Import.isIdentifier_iff`.
-/

namespace ScriptDeps

open Source

/-! ## The module paths of import statements -/

namespace Source.Tree

/-- The tree of what is imported, without another name for it. -/
def named : Tree → Tree
  | .node .renamed (t :: _) => t
  | t => t

/-- The paths of the modules that an import statement names. -/
def modulePaths : Tree → List Tree
  | .node .importStatement parts => (phrases parts).map named
  | .node .fromStatement parts => (phrases parts).head?.toList
  | _ => []

/-- The names of modules that an import statement has without a path. -/
def pathless : Tree → List String
  | .node .futureStatement _ => ["__future__"]
  | _ => []

/-- The first names of the module paths of an import statement. -/
def firstNames (t : Tree) : List String :=
  t.modulePaths.filterMap (fun path => path.firstName?.map String.ofList) ++ t.pathless

/-- All module paths of a tree are close. -/
def HasClosePaths (t : Tree) : Prop :=
  ∀ x ∈ t.within .start, ∀ path ∈ x.2.modulePaths, path.isClose = true

end Source.Tree

variable {t tree : Tree}

/-- The phrases among trees with places are the phrases among the trees. -/
theorem map_filter_located (p : Position) (ts : List Tree) :
    ((Tree.located p ts).filter (·.2.isPhrase)).map (·.2) = phrases ts := by
  induction ts generalizing p with
  | nil => rfl
  | cons t ts ih =>
    have hrest := ih (p.past t)
    cases t with
    | leaf gap text => exact hrest
    | node phrase parts => exact congrArg (Source.Tree.node phrase parts :: ·) hrest

/-- A statement that imports names has the first of its phrases as its module path. -/
theorem Source.Tree.modulePaths_fromStatement {parts items : List Tree}
    (h : phrases parts = t :: items) :
    (Source.Tree.node .fromStatement parts).modulePaths = [t] := by
  rw [modulePaths, h]
  rfl

/-- What names a dotted name gives its tree. -/
theorem Source.Tree.Names.named_eq {path : Tree} {rename : Option Tree} (h : t.Names path rename) :
    t.named = path ∧ path.modulePath = textOf path ∧ ∃ parts, path = .node .dottedName parts := by
  cases h with
  | plain parts => exact ⟨rfl, rfl, parts, rfl⟩
  | renamed parts gap gap' text => exact ⟨rfl, rfl, parts, rfl⟩

namespace Import

variable {x : Position × Tree} {imports : List Import}

private theorem filterMap_topLevel_of_names {statement : Tree} {xs : List (Position × Tree)}
    (h : List.Forall₂ (OfName statement) xs imports) : imports.filterMap topLevel =
      ((xs.map (·.2)).map Tree.named).filterMap fun path => topLevelOf path.modulePath.toList := by
  induction h with
  | nil => rfl
  | cons hone _ ih =>
    obtain ⟨path, rename, hnames, rfl⟩ := hone
    obtain ⟨hnamed, hpath, -⟩ := hnames.named_eq
    rw [List.map_cons, List.map_cons, List.filterMap_cons, List.filterMap_cons, ih, hnamed, hpath]
    rfl

/-- The first components of the records of a statement are those of its module paths. -/
theorem RecordedAs.filterMap_topLevel (h : RecordedAs x imports) : imports.filterMap topLevel =
    x.2.modulePaths.filterMap (fun path => topLevelOf path.modulePath.toList) ++ x.2.pathless := by
  cases h with
  | @modules p parts _ h =>
    have hnone : (Source.Tree.node .importStatement parts).pathless = [] := rfl
    rw [filterMap_topLevel_of_names h, map_filter_located, hnone, List.append_nil]
    rfl
  | @names p parts names target items hparts _ _ =>
    have hnone : (Source.Tree.node .fromStatement parts).pathless = [] := rfl
    rw [Tree.modulePaths_fromStatement hparts, hnone, List.append_nil]
    rfl
  | @future p parts items _ =>
    have hname : topLevelOf "__future__".toList = some "__future__" := by decide +kernel
    have htop (i : Import) (hi : i.path = "__future__") : i.topLevel = some "__future__" := by
      rw [topLevel, hi, hname]
    rw [List.filterMap_cons_some (htop _ rfl)]
    rfl

/-- The module paths of a statement in a script are paths. -/
theorem RecordedAs.isPath (htree : tree.IsScript grammar) (hspaced : tree.IsSpaced)
    (hin : x.2.IsIn tree) (h : RecordedAs x imports) : ∀ path ∈ x.2.modulePaths, path.IsPath := by
  have hpart {phrase : Phrase} {parts : List Tree} (hx : x.2 = .node phrase parts) {t : Tree}
      (ht : t ∈ phrases parts) : t.IsIn tree :=
    Tree.IsIn.trans (.part (mem_phrases_iff.1 ht).1 (.whole t)) (hx ▸ hin)
  cases h with
  | @modules p parts _ h =>
    intro path hpath
    obtain ⟨t, ht, rfl⟩ := List.mem_map.1 hpath
    have hmem := ht
    rw [← map_filter_located p, List.mem_map] at hmem
    obtain ⟨y, hy, rfl⟩ := hmem
    obtain ⟨_, -, path, rename, hnames, -⟩ := exists_of_mem_forall₂ h.flip hy
    obtain ⟨hnamed, -, inner, rfl⟩ := hnames.named_eq
    rw [hnamed]
    exact .dotted (htree.isDotted hspaced (hnames.isIn.trans (hpart rfl ht)))
  | @names p parts names target items hparts htarget _ =>
    rw [Tree.modulePaths_fromStatement hparts, List.forall_mem_singleton]
    have hin := hpart rfl (hparts ▸ List.mem_cons_self)
    cases target with
    | leaf gap text => simp [Tree.isOf] at htarget
    | node phrase inner =>
      have hcases : phrase = .relativePath ∨ phrase = .dottedName := by
        simpa [Tree.isOf] using htarget
      rcases hcases with rfl | rfl
      · exact htree.isPath hspaced hin
      · exact .dotted (htree.isDotted hspaced hin)
  | future _ => exact List.forall_mem_nil _

end Import

/-! ## Trees without their gaps -/

namespace Source.Tree

mutual

/-- A tree without its gaps. -/
def bare : Tree → Tree
  | .leaf _ text => .leaf [] text
  | .node phrase parts => .node phrase (bareAll parts)

/-- Trees in a row without their gaps. -/
def bareAll : List Tree → List Tree
  | [] => []
  | t :: ts => t.bare :: bareAll ts

end

/-- Trees in a row lose their gaps one by one. -/
theorem bareAll_eq_map (ts : List Tree) : bareAll ts = ts.map bare := by
  induction ts with
  | nil => rfl
  | cons t ts ih => rw [bareAll, ih, List.map_cons]

mutual

/-- The nodes of a tree without its gaps are its nodes without their gaps. -/
theorem map_bare_within (p q : Position) : ∀ t : Tree,
    (t.within p).map (·.2.bare) = (t.bare.within q).map (·.2)
  | .leaf _ _ => rfl
  | .node phrase parts => by
    rw [bare, within, within, List.map_cons, List.map_cons, map_bare_withinAll p q parts]
    rfl

/-- The nodes of trees in a row without their gaps are their nodes without gaps. -/
theorem map_bare_withinAll (p q : Position) : ∀ ts : List Tree,
    (withinAll p ts).map (·.2.bare) = (withinAll q (bareAll ts)).map (·.2)
  | [] => rfl
  | t :: ts => by
    rw [bareAll, withinAll, withinAll, List.map_append, List.map_append, map_bare_within p q t,
      map_bare_withinAll (p.past t) (q.past t.bare) ts]

end

/-- A tree without its gaps is of the same phrase. -/
theorem isOf_bare (phrase : Phrase) (t : Tree) : t.bare.isOf phrase = t.isOf phrase := by
  cases t <;> rfl

/-- A tree without its gaps is an import statement if the tree is one. -/
theorem isImporting_bare (t : Tree) : t.bare.isImporting = t.isImporting := by
  simp only [isImporting, isOf_bare]

/-- The phrases among trees without their gaps are the phrases among the trees, without theirs. -/
theorem phrases_bareAll (ts : List Tree) : phrases (bareAll ts) = (phrases ts).map bare := by
  induction ts with
  | nil => rfl
  | cons t ts ih =>
    cases t with
    | leaf gap text => exact ih
    | node phrase parts => exact congrArg (node phrase (bareAll parts) :: ·) ih

/-- A tree without its gaps begins with the same name. -/
theorem headName?_bare (t : Tree) : t.bare.headName? = t.headName? := by
  cases t with
  | leaf gap text => rfl
  | node phrase parts =>
    cases phrase
    case dottedName => rcases parts with _ | ⟨_ | _, _⟩ <;> rfl
    all_goals rfl

/-- What is imported does not depend on gaps. -/
theorem named_bare (t : Tree) : t.bare.named = t.named.bare := by
  cases t with
  | leaf gap text => rfl
  | node phrase parts =>
    cases phrase
    case renamed => cases parts <;> rfl
    all_goals rfl

/-- The first name of a path does not depend on gaps. -/
theorem firstName?_bare (t : Tree) : t.bare.firstName? = t.firstName? := by
  cases t with
  | leaf gap text => rfl
  | node phrase parts =>
    cases phrase
    case relativePath =>
      rw [bare, firstName?, firstName?, bareAll_eq_map, List.findSome?_map]
      exact congrArg (parts.findSome? ·) (funext headName?_bare)
    case dottedName => exact headName?_bare (.node .dottedName parts)
    all_goals rfl

/-- The paths of modules do not depend on gaps, but for their own. -/
theorem modulePaths_bare (t : Tree) : t.bare.modulePaths = t.modulePaths.map bare := by
  cases t with
  | leaf gap text => rfl
  | node phrase parts =>
    cases phrase
    case importStatement =>
      rw [bare, modulePaths, modulePaths, phrases_bareAll, List.map_map, List.map_map]
      exact congrArg ((phrases parts).map ·) (funext named_bare)
    case fromStatement =>
      rw [bare, modulePaths, modulePaths, phrases_bareAll, List.head?_map]
      exact Option.toList_map ..
    all_goals rfl

/-- The names without a path do not depend on gaps. -/
theorem pathless_bare (t : Tree) : t.bare.pathless = t.pathless := by
  cases t with
  | leaf gap text => rfl
  | node phrase parts => cases phrase <;> rfl

/-- The first names of module paths do not depend on gaps. -/
theorem firstNames_bare (t : Tree) : t.bare.firstNames = t.firstNames := by
  rw [firstNames, firstNames, modulePaths_bare, pathless_bare, List.filterMap_map]
  simp only [Function.comp_def, firstName?_bare]

end Source.Tree

/-! ## Names -/

namespace Import

/-- The first components of a module path and of a statement without one. -/
def componentsOf (t : Tree) : List String :=
  t.modulePaths.filterMap (fun path => topLevelOf path.modulePath.toList) ++ t.pathless

/-- The names that a script imports are those of its import statements. -/
theorem filterMap_topLevel_ofTree (htree : tree.IsScript grammar) :
    (ofTree .start tree).filterMap topLevel =
      ((tree.within .start).filter (·.2.isImporting)).flatMap fun x => componentsOf x.2 := by
  rw [ofTree_eq_flatMap .start tree fun x hx himporting =>
    (recordedAs_of_isImporting htree hx himporting).2.2, List.filterMap_flatMap]
  refine List.flatMap_congr fun x hx => ?_
  obtain ⟨hx, himporting⟩ := List.mem_filter.1 hx
  exact (recordedAs_of_isImporting htree hx himporting).1.filterMap_topLevel

/-- A name without a path is an identifier. -/
theorem isIdentifier_of_mem_pathless {name : String} (h : name ∈ t.pathless) :
    IsIdentifier name := by
  have hname : name = "__future__" := by
    unfold Tree.pathless at h
    split at h
    · exact List.mem_singleton.1 h
    · cases h
  have hall : "_future__".toList.all isWordChar = true := by decide
  have hletters : IsNameText "__future__".toList :=
    ⟨'_', "_future__".toList, by decide, by decide, fun d hd =>
      isNameRest_of_isWordChar (List.all_eq_true.1 hall d hd)⟩
  rw [hname, ← String.ofList_toList (s := "__future__")]
  exact .of_isNameText hletters

/-- Close paths have their first names as their first components. -/
theorem componentsOf_eq_firstNames (hpaths : ∀ path ∈ t.modulePaths, path.IsPath)
    (hclose : ∀ path ∈ t.modulePaths, path.isClose = true) :
    componentsOf t = t.firstNames ∧ ∀ name ∈ t.firstNames, IsIdentifier name := by
  constructor
  · rw [componentsOf, Tree.firstNames]
    congr 1
    exact List.filterMap_congr fun path hpath =>
      ((hpaths path hpath).topLevelOf_eq (hclose path hpath)).1
  · intro name hname
    rcases List.mem_append.1 hname with hname | hname
    · obtain ⟨path, hpath, hfirst⟩ := List.mem_filterMap.1 hname
      obtain ⟨first, hsome, rfl⟩ := Option.map_eq_some_iff.1 hfirst
      exact .of_isNameText
        (((hpaths path hpath).topLevelOf_eq (hclose path hpath)).2 first hsome)
    · exact isIdentifier_of_mem_pathless hname

/-- The module paths of the import statements of a script are paths. -/
theorem isPath_of_mem_modulePaths (htree : tree.IsScript grammar) (hspaced : tree.IsSpaced)
    {x : Position × Tree} (hx : x ∈ tree.within .start) (himporting : x.2.isImporting = true) :
    ∀ path ∈ x.2.modulePaths, path.IsPath :=
  (recordedAs_of_isImporting htree hx himporting).1.isPath htree hspaced
    ((Tree.exists_mem_within_iff _ .start tree).1 ⟨x.1, hx⟩)

/-- What imports nothing has no module path. -/
theorem isImporting_of_mem_modulePaths {path : Tree} (h : path ∈ t.modulePaths) :
    t.isImporting = true := by
  unfold Tree.modulePaths at h
  split at h
  · rfl
  · rfl
  · cases h

/-- The names that a script imports are identifiers exactly if its module paths are close. -/
theorem forall_isIdentifier_iff (htree : tree.IsScript grammar) (hspaced : tree.IsSpaced) :
    (∀ name ∈ (ofTree .start tree).filterMap topLevel, IsIdentifier name) ↔
      tree.HasClosePaths := by
  rw [filterMap_topLevel_ofTree htree]
  constructor
  · intro h x hx path hpath
    have himporting := isImporting_of_mem_modulePaths hpath
    rw [← Bool.not_eq_false]
    intro hloose
    have hispath := isPath_of_mem_modulePaths htree hspaced hx himporting path hpath
    obtain ⟨name, hname, hnot⟩ := hispath.exists_topLevelOf hloose
    refine hnot (h name (List.mem_flatMap.2 ⟨x, List.mem_filter.2 ⟨hx, himporting⟩, ?_⟩))
    exact List.mem_append_left _ (List.mem_filterMap.2 ⟨path, hpath, hname⟩)
  · intro hclose name hname
    obtain ⟨x, hx, hname⟩ := List.mem_flatMap.1 hname
    obtain ⟨hx, himporting⟩ := List.mem_filter.1 hx
    obtain ⟨heq, hall⟩ := componentsOf_eq_firstNames
      (isPath_of_mem_modulePaths htree hspaced hx himporting) (hclose x hx)
    exact hall name (heq ▸ hname)

/-- The names that a script with close paths imports do not depend on its gaps. -/
theorem filterMap_topLevel_of_bare (htree : tree.IsScript grammar) (hspaced : tree.IsSpaced)
    (hclose : tree.HasClosePaths) : (ofTree .start tree).filterMap topLevel =
      (((tree.bare.within .start).map (·.2)).filter (·.isImporting)).flatMap (·.firstNames) := by
  rw [filterMap_topLevel_ofTree htree, ← Tree.map_bare_within .start .start tree, List.filter_map,
    List.flatMap_map]
  simp only [Function.comp_def, Tree.isImporting_bare, Tree.firstNames_bare]
  refine List.flatMap_congr fun x hx => ?_
  obtain ⟨hx, himporting⟩ := List.mem_filter.1 hx
  exact (componentsOf_eq_firstNames (isPath_of_mem_modulePaths htree hspaced hx himporting)
    (hclose x hx)).1

/-- A script without old statements gives the imports of its tree. -/
private theorem ofSource_of_isCurrent {source : List Char} (hparse : parse? source = some tree)
    (hcurrent : tree.IsCurrent) : ofSource source = .ok (ofTree .start tree) := by
  rw [ofSource, hparse]
  simp only [first?_eq_none .start tree hcurrent]

/-- Whether a script has old statements does not depend on its gaps. -/
private theorem isCurrent_of_bare {tree' : Tree} (h : tree'.bare = tree.bare)
    (hcurrent : tree.IsCurrent) : tree'.IsCurrent := by
  have hmap : (tree'.within .start).map (·.2.bare) = (tree.within .start).map (·.2.bare) := by
    rw [Tree.map_bare_within .start .start, Tree.map_bare_within .start .start, h]
  intro x hx
  have hmem : x.2.bare ∈ (tree.within .start).map (·.2.bare) :=
    hmap ▸ List.mem_map_of_mem (f := (·.2.bare)) hx
  obtain ⟨y, hy, heq⟩ := List.mem_map.1 hmem
  rw [← Tree.isOf_bare, ← heq, ← Tree.isOf_bare .execStatement x.2, ← heq, Tree.isOf_bare,
    Tree.isOf_bare]
  exact hcurrent y hy

/-- All names that a script imports are identifiers exactly if its module paths are close. Two
scripts with close paths that differ in nothing but gaps import the same names: they need the same
modules and the same packages. -/
theorem isIdentifier_iff {source : List Char} (hparse : parse? source = some tree)
    (hcurrent : tree.IsCurrent) :
    ∃ imports names, ofSource source = .ok imports ∧ topLevelNames source = .ok names ∧
      (∀ name, name ∈ names ↔ ∃ i ∈ imports, i.topLevel = some name) ∧
      ((∀ name ∈ names, IsIdentifier name) ↔ tree.HasClosePaths) ∧
      ∀ source' tree', parse? source' = some tree' → tree'.bare = tree.bare →
        tree.HasClosePaths → tree'.HasClosePaths → topLevelNames source' = .ok names ∧
          ∀ u : Universe,
            (Analysis.ofSource u source').1.bundled = (Analysis.ofSource u source).1.bundled ∧
            (Analysis.ofSource u source').1.dependencies =
              (Analysis.ofSource u source).1.dependencies := by
  have htree := isScript_of_parse? hparse
  have hspaced := isSpaced_of_parse? hparse
  have hsource := ofSource_of_isCurrent hparse hcurrent
  have hmem (name : String) :
      name ∈ (NameSet.ofList ((ofTree .start tree).filterMap topLevel)).toList ↔
        ∃ i ∈ ofTree .start tree, i.topLevel = some name := by
    rw [NameSet.mem_ofList, List.mem_filterMap]
  refine ⟨_, _, hsource, by rw [topLevelNames, hsource], hmem, ?_, ?_⟩
  · rw [← forall_isIdentifier_iff htree hspaced]
    simp only [NameSet.mem_ofList]
  · intro source' tree' hparse' hbare hclose hclose'
    have hsource' := ofSource_of_isCurrent hparse' (isCurrent_of_bare hbare hcurrent)
    have hnames : (ofTree .start tree').filterMap topLevel =
        (ofTree .start tree).filterMap topLevel := by
      rw [filterMap_topLevel_of_bare (isScript_of_parse? hparse') (isSpaced_of_parse? hparse')
        hclose', filterMap_topLevel_of_bare htree hspaced hclose, hbare]
    refine ⟨by simp only [topLevelNames, hsource', hnames], fun u => ?_⟩
    simp only [Analysis.ofSource, Analysis.ofText, hsource, hsource']
    exact Analysis.ofImports_congr u hnames

/-- A module path with spaces around its dot, with a space behind it, and without any. -/
theorem isIdentifier_iff_spaced :
    let os : ImportScript.Name := ⟨['o', 's'], rfl, rfl, by decide⟩
    let path : ImportScript.Name := ⟨['p', 'a', 't', 'h'], rfl, rfl, by decide⟩
    let around := ImportScript.spacedText os path 1 1
    let behind := ImportScript.spacedText os path 0 1
    let without := ImportScript.spacedText os path 0 0
    let u : Universe := ⟨NameSet.ofList ["os"]⟩
    String.ofList around = "import os . path\n" ∧ topLevelNames around = .ok ["os "] ∧
      ¬ IsIdentifier "os " ∧ (Analysis.ofSource u around).1.dependencies = ⟨["os "]⟩ ∧
      String.ofList behind = "import os. path\n" ∧ topLevelNames behind = .ok ["os"] ∧
      String.ofList without = "import os.path\n" ∧ topLevelNames without = .ok ["os"] ∧
      IsIdentifier "os" ∧ (Analysis.ofSource u behind).1.dependencies = .empty ∧
      (Analysis.ofSource u without).1.dependencies = .empty := by
  intro os path around behind without u
  let tree (before behind : Nat) : Tree :=
    .node .script [ImportScript.spacedTree os path before behind, .leaf ['\n'] []]
  have hparse (m n : Nat) : parse? (ImportScript.spacedText os path m n) = some (tree m n) :=
    ImportScript.parse?_spacedText os path m n
  have hcurrent (m n : Nat) : (tree m n).IsCurrent := by
    simp [Tree.IsCurrent, tree, ImportScript.spacedTree, Tree.within, Tree.withinAll, Tree.isOf,
      ImportScript.leaf, ImportScript.Name.tree]
  have hclose (n : Nat) : (tree 0 n).HasClosePaths := by
    simp [Tree.HasClosePaths, tree, ImportScript.spacedTree, Tree.within, Tree.withinAll,
      ImportScript.leaf, ImportScript.Name.tree, Tree.modulePaths, phrases, Tree.named,
      Tree.isClose, Tree.endsClose, Tree.gap, spaces]
  have hloose : ¬ (tree 1 1).HasClosePaths := by
    intro h
    have himport : (⟨1, 0⟩, ImportScript.spacedTree os path 1 1) ∈ (tree 1 1).within .start :=
      List.mem_cons_of_mem _ List.mem_cons_self
    cases h _ himport _ List.mem_cons_self
  have haround := ofSource_of_isCurrent (hparse 1 1) (hcurrent 1 1)
  have hwithout := ofSource_of_isCurrent (hparse 0 0) (hcurrent 0 0)
  have hnames : topLevelNames around = .ok ["os "] := by
    have hfirst : (ofTree .start (tree 1 1)).filterMap topLevel = ["os "] := by decide +kernel
    simp only [topLevelNames, around, haround, hfirst]
    rfl
  have hnames' : topLevelNames without = .ok ["os"] := by
    have hfirst : (ofTree .start (tree 0 0)).filterMap topLevel = ["os"] := by decide +kernel
    simp only [topLevelNames, without, hwithout, hfirst]
    rfl
  have hdependencies : (Analysis.ofSource u around).1.dependencies = ⟨["os "]⟩ := by
    simp only [Analysis.ofSource, Analysis.ofText, around, haround]
    decide +kernel
  have hdependencies' : (Analysis.ofSource u without).1.dependencies = .empty := by
    simp only [Analysis.ofSource, Analysis.ofText, without, hwithout]
    decide +kernel
  obtain ⟨_, names, -, heq, -, hiff, -⟩ := isIdentifier_iff (hparse 1 1) (hcurrent 1 1)
  obtain rfl : ["os "] = names := Except.ok.inj (hnames.symm.trans heq)
  obtain ⟨_, names, -, heq, -, hiff', hsame⟩ := isIdentifier_iff (hparse 0 0) (hcurrent 0 0)
  obtain rfl : ["os"] = names := Except.ok.inj (hnames'.symm.trans heq)
  obtain ⟨hbehind, hpackages⟩ := hsame _ _ (hparse 0 1) rfl (hclose 0) (hclose 1)
  have hidentifier : IsIdentifier "os" := hiff'.2 (hclose 0) _ List.mem_cons_self
  have hnot : ¬ IsIdentifier "os " := fun h => hloose (hiff.1 (List.forall_mem_singleton.2 h))
  exact ⟨by decide +kernel, hnames, hnot, hdependencies, by decide +kernel, hbehind,
    by decide +kernel, hnames', hidentifier, (hpackages u).2.trans hdependencies', hdependencies'⟩

end Import

end ScriptDeps
