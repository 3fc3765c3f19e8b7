import ScriptDeps.Proofs.Import.Slices
import ScriptDeps.Proofs.OldScript.Reading

/-!
# Statements of the older language

A print statement or an exec statement anywhere in a script has it refused, whatever it imports. The
search for one agrees with the order of the text: the one that is named begins in front of all
others. Main statement: `OldStatement.refused_iff`.
-/

namespace ScriptDeps

open Source

/-- The word that an old statement begins with. -/
def OldStatement.word : OldStatement → String
  | print => "print"
  | exec => "exec"

variable {p q : Position} {tree : Tree} {parts : List Tree}

namespace OldStatement

/-! ## Where old statements begin -/

/-- Old statements begin with their words. -/
private def beginsOld : Symbol → List Symbol → Bool
  | .phrase .printStatement, parts => parts.head? == some (.token (.word "print"))
  | .phrase .execStatement, parts => parts.head? == some (.token (.word "exec"))
  | _, _ => true

private theorem allForms_beginsOld : grammar.allForms beginsOld = true := by
  decide +kernel

/-- The first token of an old statement of a script is its word. -/
theorem exists_leaf_of_mem_within (htree : tree.IsScript grammar) {old : OldStatement}
    (h : (q, .node old.phrase parts) ∈ tree.within p) :
    ∃ gap us, parts = .leaf gap old.word.toList :: us := by
  have hne : old.phrase ≠ .script := by
    cases old <;> exact nofun
  obtain ⟨ys, hbuilds, hgrows⟩ := htree.of_mem_within hne h
  have htest := test_of_builds allForms_beginsOld rfl hbuilds
  have hhead : ys.head? = some (.token (.word old.word)) := by
    cases old <;> exact eq_of_beq htest
  obtain ⟨zs, rfl⟩ := List.head?_eq_some_iff.1 hhead
  obtain ⟨gap, us, rfl, -⟩ := exists_leaf_of_word hgrows
  exact ⟨gap, us, rfl⟩

/-- Old statements of a script begin one behind the other, also where one stands in another. -/
theorem pairwise_filter_isOld (htree : tree.IsScript grammar) :
    ((tree.within .start).filter (·.2.isOld)).Pairwise fun x y =>
      x.1.ofTree x.2 < y.1.ofTree y.2 := by
  refine ((Tree.pairwise_within .start tree).filter _).imp_of_mem ?_
  intro x y hx hy hlater
  obtain ⟨hx, hxold⟩ := List.mem_filter.1 hx
  obtain ⟨q, t⟩ := x
  obtain ⟨old, parts, rfl⟩ := Tree.isOld_iff.1 hxold
  obtain ⟨gap, us, rfl⟩ := exists_leaf_of_mem_within htree hx
  have hword : old.word.toList ≠ [] := by
    cases old <;> exact nofun
  have hbegin : q.ofTree (.node old.phrase (.leaf gap old.word.toList :: us)) <
      q.past (.leaf gap old.word.toList) := Position.lt_advance (q.advance gap) hword
  refine lt_of_lt_of_le (lt_of_lt_of_le hbegin ?_) (y.1.le_advance y.2.gap)
  rcases hlater with hin | hbehind
  · -- The first token of a statement is no old statement itself.
    rw [Tree.children, Tree.withinAll, Tree.within, List.singleton_append, List.mem_cons] at hin
    rcases hin with rfl | hin
    · cases (List.mem_filter.1 hy).2
    · exact (Tree.bounds_of_mem_withinAll us hin).1
  · exact (Position.le_pastAll _ us).trans hbehind

/-! ## Refused scripts -/

/-- What a script is refused with because of its old statements: the kind of the one that begins
first, and the point of the script where its text stands. -/
inductive Refuses (source : List Char) (tree : Tree) : SyntaxError → Prop
  | first (old : OldStatement) (q : Position) (parts : List Tree)
    (others : List (Position × Tree)) (before after : List Char)
    (hfilter : (tree.within .start).filter (·.2.isOld) = (q, .node old.phrase parts) :: others)
    (hothers : ∀ y ∈ others, q.ofTree (.node old.phrase parts) < y.1.ofTree y.2)
    (hsource : source = before ++ (Source.Tree.node old.phrase parts).text ++ after)
    (hword : old.word.toList <+: (Source.Tree.node old.phrase parts).text)
    (hposition : (q.ofTree (.node old.phrase parts)).IsBehind before) :
    Refuses source tree (.old old (q.ofTree (.node old.phrase parts)))

/-- The old statement that the search finds is the one that begins first. -/
private theorem refuses_of_first? {source : List Char} (hparse : parse? source = some tree)
    {old : OldStatement} (h : first? .start tree = some (old, p)) :
    Refuses source tree (.old old p) := by
  have htree := isScript_of_parse? hparse
  rw [first?_eq_head?, List.head?_filterMap, List.findSome?_eq_some_iff] at h
  obtain ⟨us, ⟨q, t⟩, vs, hsplit, hhere, hnone⟩ := h
  have hold := isOld_of_here? hhere
  obtain ⟨old', parts, rfl⟩ := Tree.isOld_iff.1 hold
  rw [here?_phrase] at hhere
  cases hhere
  have hus : us.filter (·.2.isOld) = [] := by
    rw [List.filter_eq_nil_iff]
    rintro ⟨q', t'⟩ hmem
    exact ne_true_of_eq_false (here?_eq_none_iff.1 (hnone _ hmem))
  have hfilter : (tree.within .start).filter (·.2.isOld) =
      (q, .node old.phrase parts) :: vs.filter (·.2.isOld) := by
    rw [hsplit, List.filter_append, hus, List.nil_append, List.filter_cons, if_pos hold]
  have hpairwise := pairwise_filter_isOld htree
  rw [hfilter, List.pairwise_cons] at hpairwise
  have hmem : (q, .node old.phrase parts) ∈ tree.within .start := by simp [hsplit]
  obtain ⟨before, after, hchars, hposition⟩ := Tree.exists_text_of_mem_within hmem
  obtain ⟨gap, ws, rfl⟩ := exists_leaf_of_mem_within htree hmem
  rw [chars_of_parse? hparse] at hchars
  refine .first old q _ _ before after hfilter hpairwise.1 hchars ?_ ?_
  · rw [Tree.text_node_leaf]
    exact List.prefix_append _ _
  · rw [hposition]
    exact Position.isBehind_advance before

/-- A script that follows the grammar gives its imports exactly if no old statement stands in it. -/
theorem exists_error_iff {source : List Char} (hparse : parse? source = some tree) :
    (∃ e, Import.ofSource source = .error e) ↔ ∃ x ∈ tree.within .start, x.2.isOld = true := by
  have hnone := first?_eq_none_iff (p := .start) (t := tree)
  simp only [Import.ofSource, hparse]
  cases hfirst : first? .start tree with
  | some r =>
    refine ⟨fun _ => ?_, fun _ => ⟨_, rfl⟩⟩
    have hsome : ¬ ∀ x ∈ tree.within .start, x.2.isOld = false := by
      rw [← hnone, hfirst]
      exact Option.some_ne_none r
    simpa using hsome
  | none =>
    constructor
    · rintro ⟨e, he⟩
      cases he
    · rintro ⟨x, hx, hold⟩
      rw [hnone.1 hfirst x hx] at hold
      cases hold

/-- A script that follows the grammar is refused exactly if an old statement stands anywhere in it,
and then because of the one that begins first. -/
theorem refused_iff {source : List Char} (hparse : parse? source = some tree) :
    ((∃ e, Import.ofSource source = .error e) ↔
      ∃ x ∈ tree.within .start, x.2.isOf .printStatement ∨ x.2.isOf .execStatement) ∧
      ∀ e, Import.ofSource source = .error e → Refuses source tree e := by
  constructor
  · rw [exists_error_iff hparse]
    simp only [Tree.isOld, Bool.or_eq_true]
  · intro e he
    cases hfirst : first? .start tree with
    | some r =>
      simp only [Import.ofSource, hparse, hfirst] at he
      cases he
      exact refuses_of_first? hparse hfirst
    | none =>
      simp only [Import.ofSource, hparse, hfirst] at he
      cases he

/-- An exec statement in the block of a condition, behind two imports. -/
theorem refused_iff_nested :
    let a : ImportScript.Name := ⟨['a'], rfl, rfl, by decide⟩
    let b : ImportScript.Name := ⟨['b'], rfl, rfl, by decide⟩
    let source := OldScript.text a b a b
    let e : SyntaxError := .old .exec ⟨4, 4⟩
    String.ofList source = "import a\n" ++ "if b:\n" ++ "    import a\n" ++ "    exec b\n" ∧
      parse? source = some (OldScript.tree a b a b) ∧
      Import.ofSource source = .error e ∧ Refuses source (OldScript.tree a b a b) e ∧
      e.message = "syntax error at line 4, column 4: exec statement is Python 2 syntax" := by
  intro a b source e
  have hparse : parse? source = some (OldScript.tree a b a b) := OldScript.parse?_text a b a b
  obtain ⟨hiff, hrefuses⟩ := refused_iff hparse
  have hfilter : ((OldScript.tree a b a b).within .start).filter (·.2.isOld) =
      [(⟨3, 12⟩, OldScript.execTree (ImportScript.lineGap 1) b)] := rfl
  have hexec := List.mem_of_mem_filter (List.mem_of_mem_head? (congrArg List.head? hfilter))
  obtain ⟨e', he'⟩ := hiff.2 ⟨_, hexec, .inr rfl⟩
  have heq : e' = e := by
    cases hrefuses e' he' with
    | first old q parts others before after hsplit =>
      rw [hfilter] at hsplit
      obtain ⟨⟨rfl, htree⟩, -⟩ := (List.cons.inj hsplit).imp_left Prod.mk.inj
      obtain ⟨hphrase, rfl⟩ := Source.Tree.node.inj htree
      cases old with
      | print => cases hphrase
      | exec => rfl
  rw [heq] at he'
  exact ⟨by decide +kernel, hparse, he', hrefuses e he', by decide +kernel⟩

end OldStatement

end ScriptDeps
