import ScriptDeps.Proofs.Import.Search
import ScriptDeps.Proofs.Import.Statements
import ScriptDeps.Proofs.ImportScript.Extraction

/-!
# Imports at any depth

The walk through the tree of a script meets every import statement, at any depth, and makes of each
the records that it stands for, once and in the order of the text. Nothing else gives a record. Main
statement: `Import.ofTree_eq_records`.
-/

namespace ScriptDeps

open Source

/-- No print statement and no exec statement stands anywhere in a tree. -/
def Source.Tree.IsCurrent (t : Tree) : Prop :=
  ∀ x ∈ t.within .start, x.2.isOf .printStatement = false ∧ x.2.isOf .execStatement = false

/-! ## The whole walk -/

namespace Import

mutual

/-- Where no import statement stands in another one, the imports of a tree are those of the import
statements within it. -/
theorem ofTree_eq_flatMap (p : Position) : ∀ t : Tree,
    (∀ x ∈ t.within p, x.2.isImporting = true →
      ∀ y ∈ Tree.withinAll x.1 x.2.children, y.2.isImporting = false) →
    ofTree p t = ((t.within p).filter (·.2.isImporting)).flatMap ofStatement
  | .leaf _ _, _ => rfl
  | .node phrase parts, h => by
    rw [Tree.within, List.forall_mem_cons] at h
    rw [Tree.within]
    cases hphrase : (Source.Tree.node phrase parts).isImporting with
    | true =>
      have hinner : (Tree.withinAll p parts).filter (·.2.isImporting) = [] := by
        simpa [Tree.children] using h.1 hphrase
      rw [ofTree_of_isImporting p hphrase, List.filter_cons, if_pos hphrase, hinner]
      exact (List.append_nil _).symm
    | false =>
      rw [ofTree_node p hphrase, List.filter_cons, if_neg (ne_true_of_eq_false hphrase)]
      exact ofTrees_eq_flatMap p parts h.2

/-- Where no import statement stands in another one, the imports of trees in a row are those of
the import statements within them. -/
theorem ofTrees_eq_flatMap (p : Position) : ∀ ts : List Tree,
    (∀ x ∈ Tree.withinAll p ts, x.2.isImporting = true →
      ∀ y ∈ Tree.withinAll x.1 x.2.children, y.2.isImporting = false) →
    ofTrees p ts = ((Tree.withinAll p ts).filter (·.2.isImporting)).flatMap ofStatement
  | [], _ => rfl
  | t :: ts, h => by
    rw [Tree.withinAll, List.forall_mem_append] at h
    rw [Tree.withinAll, List.filter_append, List.flatMap_append, ofTrees,
      ofTree_eq_flatMap p t h.1, ofTrees_eq_flatMap (p.past t) ts h.2]

end

mutual

/-- The records of a tree stand in order and within the tree if those of its import statements
do. -/
theorem between_ofTree (p : Position) : ∀ t : Tree,
    (∀ x ∈ t.within p, x.2.isImporting = true → Between x.1 (x.1.past x.2) (ofStatement x)) →
    Between p (p.past t) (ofTree p t)
  | .leaf _ _, _ => .nil p _
  | .node phrase parts, h => by
    rw [Tree.within, List.forall_mem_cons] at h
    cases hphrase : (Source.Tree.node phrase parts).isImporting with
    | true =>
      rw [ofTree_of_isImporting p hphrase]
      exact h.1 hphrase
    | false =>
      rw [ofTree_node p hphrase]
      exact between_ofTrees p parts h.2

/-- The records of trees in a row stand in order if those of their import statements do. -/
theorem between_ofTrees (p : Position) : ∀ ts : List Tree,
    (∀ x ∈ Tree.withinAll p ts, x.2.isImporting = true →
      Between x.1 (x.1.past x.2) (ofStatement x)) →
    Between p (p.pastAll ts) (ofTrees p ts)
  | [], _ => .nil p p
  | t :: ts, h => by
    rw [Tree.withinAll, List.forall_mem_append] at h
    exact (between_ofTree p t h.1).append (between_ofTrees (p.past t) ts h.2) (p.le_past t)
      (Position.le_pastAll _ ts)

end

end Import

/-- Where no old statement stands within a tree none is found. -/
theorem first?_eq_none (p : Position) (t : Tree)
    (h : ∀ x ∈ t.within p,
      x.2.isOf .printStatement = false ∧ x.2.isOf .execStatement = false) :
    OldStatement.first? p t = none := by
  refine OldStatement.first?_eq_none_iff.2 fun x hx => ?_
  rw [Tree.isOld, (h x hx).1, (h x hx).2, Bool.or_false]

/-! ## Scripts -/

/-- The import statements of a script follow the grammar. -/
theorem builds_of_isImporting {t : Tree} (ht : t.IsScript grammar) {p : Position}
    {x : Position × Tree} (hx : x ∈ t.within p) (himporting : x.2.isImporting = true) :
    ∃ phrase ∈ importing, ∃ ys parts, x.2 = .node phrase parts ∧
      Builds grammar (.phrase phrase) ys ∧ Grows grammar ys parts := by
  obtain ⟨q, u⟩ := x
  cases u with
  | leaf gap text => cases himporting
  | node phrase parts =>
    have hphrase : phrase ∈ importing := by
      simpa [Tree.isImporting, Tree.isOf, importing] using himporting
    have hne : phrase ≠ .script := by
      rintro rfl
      cases himporting
    obtain ⟨ys, hbuilds, hgrows⟩ := ht.of_mem_within hne hx
    exact ⟨phrase, hphrase, ys, parts, rfl, hbuilds, hgrows⟩

namespace Import

/-- An import statement of a script has its records, in order, and no other one stands in it. -/
theorem recordedAs_of_isImporting {t : Tree} (ht : t.IsScript grammar) {p : Position}
    {x : Position × Tree} (hx : x ∈ t.within p) (himporting : x.2.isImporting = true) :
    RecordedAs x (ofStatement x) ∧ Between x.1 (x.1.past x.2) (ofStatement x) ∧
      ∀ y ∈ Tree.withinAll x.1 x.2.children, y.2.isImporting = false := by
  obtain ⟨phrase, hphrase, ys, parts, heq, hbuilds, hgrows⟩ :=
    builds_of_isImporting ht hx himporting
  obtain ⟨q, u⟩ := x
  obtain rfl : u = .node phrase parts := heq
  obtain ⟨hrecorded, hbetween⟩ := recordedAs_ofStatement hphrase hbuilds hgrows q
  exact ⟨hrecorded, hbetween, fun y => not_isImporting_of_mem hphrase hbuilds hgrows⟩

/-- No import is lost, invented or found twice: the tree of a script follows the grammar, and where
it has no old statement the imports are, in the order of the text, the records of the import
statements that stand anywhere in it. -/
theorem ofTree_eq_records :
    (∀ source tree, parse? source = some tree → tree.IsScript grammar) ∧
      ∀ tree : Tree, tree.IsScript grammar → tree.IsCurrent → ∃ records : List (List Import),
        List.Forall₂ RecordedAs ((tree.within .start).filter (·.2.isImporting)) records ∧
        records.flatten.Pairwise (fun i j => i.position < j.position) ∧
        ofTree .start tree = records.flatten ∧
        ∀ source, parse? source = some tree → ofSource source = .ok records.flatten := by
  refine ⟨fun source tree => isScript_of_parse?, fun tree htree hcurrent => ?_⟩
  have hstatement : ∀ x ∈ tree.within .start, x.2.isImporting = true →
      RecordedAs x (ofStatement x) ∧ Between x.1 (x.1.past x.2) (ofStatement x) ∧
        ∀ y ∈ Tree.withinAll x.1 x.2.children, y.2.isImporting = false :=
    fun x hx himporting => recordedAs_of_isImporting htree hx himporting
  have hwalk : ofTree .start tree =
      (((tree.within .start).filter (·.2.isImporting)).map ofStatement).flatten := by
    rw [ofTree_eq_flatMap .start tree fun x hx h => (hstatement x hx h).2.2, List.flatMap]
  refine ⟨_, ?_, ?_, hwalk, ?_⟩
  · refine List.forall₂_map_right_iff.2 (List.forall₂_same.2 fun x hx => ?_)
    obtain ⟨hx, himporting⟩ := List.mem_filter.1 hx
    exact (hstatement x hx himporting).1
  · rw [← hwalk]
    exact (between_ofTree .start tree fun x hx h => (hstatement x hx h).2.1).ascending
  · intro source hparse
    rw [ofSource, hparse]
    simp only [first?_eq_none .start tree hcurrent, hwalk]

/-- A script with two names imported in a function, and a star in a condition in it. -/
theorem ofTree_eq_records_nested :
    let os : ImportScript.Name := ⟨['o', 's'], rfl, rfl, by decide⟩
    let np : ImportScript.Name := ⟨['n', 'p'], rfl, rfl, by decide⟩
    let modules : ImportScript.Line := .modules ⟨⟨os, []⟩, none⟩ [⟨⟨np, [os]⟩, some np⟩]
    let star : ImportScript.Line := .star (.relative 0 none)
    let inner : ImportScript.Body :=
      .more (.line modules) (.one (.block .choice np (.one (.line star))))
    let body : ImportScript.Body := .one (.block .function np inner)
    let tree : Tree := .node .script (body.trees [] 0 ++ [.leaf ['\n'] []])
    String.ofList (ImportScript.print ⟨some body⟩) =
        "def np():\n" ++ "    import os, np.os as np\n" ++ "    if np:\n" ++
          "        from . import *\n" ∧
      tree.IsScript grammar ∧ tree.IsCurrent ∧
      ofSource (ImportScript.print ⟨some body⟩) = .ok
        [⟨"os", [], .module, 2, 11, "import os, np.os as np", .unknown, none⟩,
          ⟨"np.os", [], .module, 2, 15, "import os, np.os as np", .unknown, some "np"⟩,
          ⟨".", ["*"], .names, 4, 8, "from . import *", .unknown, none⟩] := by
  intro os np modules star inner body tree
  have hparse : parse? (ImportScript.print ⟨some body⟩) = some tree :=
    ImportScript.parse?_body body (by decide)
  have hscript : tree.IsScript grammar := ofTree_eq_records.1 _ tree hparse
  have hcurrent : tree.IsCurrent := by
    unfold Tree.IsCurrent
    decide +kernel
  obtain ⟨records, -, -, hwalk, hsource⟩ := ofTree_eq_records.2 tree hscript hcurrent
  refine ⟨by decide +kernel, hscript, hcurrent, ?_⟩
  rw [hsource _ hparse, ← hwalk]
  decide +kernel

end Import

end ScriptDeps
