import ScriptDeps.Import.Reader
import ScriptDeps.Proofs.Source.Nodes

/-!
# The search for old statements

Of the print statements and exec statements within a tree the search finds the one that the walk
through the tree meets first. Main statement: `OldStatement.first?_eq_head?`.
-/

namespace ScriptDeps

open Source

/-- The phrase that an old statement is. -/
def OldStatement.phrase : OldStatement → Phrase
  | print => .printStatement
  | exec => .execStatement

/-- A tree is an old statement. -/
def Source.Tree.isOld (t : Tree) : Bool := t.isOf .printStatement || t.isOf .execStatement

variable {p : Position} {t : Tree} {parts : List Tree}

/-- An old statement is a node of its phrase. -/
theorem Source.Tree.isOld_iff : t.isOld = true ↔
    ∃ (old : OldStatement) (parts : List Tree), t = .node old.phrase parts := by
  constructor
  · intro h
    cases t with
    | leaf gap text => cases h
    | node phrase parts =>
      have hcases : phrase = .printStatement ∨ phrase = .execStatement := by
        simpa [isOld, Tree.isOf] using h
      rcases hcases with rfl | rfl
      · exact ⟨.print, parts, rfl⟩
      · exact ⟨.exec, parts, rfl⟩
  · rintro ⟨old, parts, rfl⟩
    cases old <;> rfl

namespace OldStatement

/-- The old statement that a tree is, with the point where it begins. -/
def here? : Position × Tree → Option (OldStatement × Position)
  | (p, .node .printStatement parts) => some (.print, p.ofTree (.node .printStatement parts))
  | (p, .node .execStatement parts) => some (.exec, p.ofTree (.node .execStatement parts))
  | _ => none

/-- An old statement is found where its first token stands. -/
theorem here?_phrase (old : OldStatement) (p : Position) (parts : List Tree) :
    here? (p, .node old.phrase parts) = some (old, p.ofTree (.node old.phrase parts)) := by
  cases old <;> rfl

/-- Nothing is found at a tree that is no old statement. -/
theorem here?_eq_none_iff : here? (p, t) = none ↔ t.isOld = false := by
  constructor
  · intro h
    rw [Bool.eq_false_iff, ne_eq, Tree.isOld_iff]
    rintro ⟨old, parts, rfl⟩
    rw [here?_phrase] at h
    cases h
  · intro h
    unfold here?
    split
    · next heq =>
      obtain ⟨-, rfl⟩ := Prod.mk.inj heq
      cases h
    · next heq =>
      obtain ⟨-, rfl⟩ := Prod.mk.inj heq
      cases h
    · rfl

/-- What is found is an old statement. -/
theorem isOld_of_here? {r : OldStatement × Position} (h : here? (p, t) = some r) :
    t.isOld = true := by
  rw [← Bool.not_eq_false, ← here?_eq_none_iff, h]
  exact Option.some_ne_none r

/-- The search does not look into an old statement. -/
private theorem first?_phrase (old : OldStatement) (p : Position) (parts : List Tree) :
    first? p (.node old.phrase parts) = some (old, p.ofTree (.node old.phrase parts)) := by
  cases old <;> rfl

/-- The search goes on in the parts of every other phrase. -/
private theorem first?_node {phrase : Phrase}
    (h : (Source.Tree.node phrase parts).isOld = false) :
    first? p (.node phrase parts) = firstOf? p parts := by
  unfold first?
  split
  · next heq => cases heq
  · next heq =>
    obtain ⟨rfl, rfl⟩ := Source.Tree.node.inj heq
    cases h
  · next heq =>
    obtain ⟨rfl, rfl⟩ := Source.Tree.node.inj heq
    cases h
  · next heq =>
    obtain ⟨rfl, rfl⟩ := Source.Tree.node.inj heq
    rfl

mutual

/-- The search finds the first of the old statements within a tree. -/
theorem first?_eq_head? (p : Position) : ∀ t : Tree,
    first? p t = ((t.within p).filterMap here?).head?
  | .leaf _ _ => rfl
  | .node phrase parts => by
    rw [Tree.within, List.filterMap_cons]
    cases hold : (Source.Tree.node phrase parts).isOld with
    | true =>
      obtain ⟨old, parts', heq⟩ := Tree.isOld_iff.1 hold
      rw [heq, here?_phrase, first?_phrase]
      rfl
    | false =>
      rw [here?_eq_none_iff.2 hold, first?_node hold]
      exact firstOf?_eq_head? p parts

/-- The search finds the first of the old statements within trees in a row. -/
theorem firstOf?_eq_head? (p : Position) : ∀ ts : List Tree,
    firstOf? p ts = ((Tree.withinAll p ts).filterMap here?).head?
  | [] => rfl
  | t :: ts => by
    rw [firstOf?, first?_eq_head? p t, firstOf?_eq_head? (p.past t) ts, Tree.withinAll,
      List.filterMap_append, List.head?_append]

end

/-- The search finds nothing exactly if there is nothing to find. -/
theorem first?_eq_none_iff : first? p t = none ↔ ∀ x ∈ t.within p, x.2.isOld = false := by
  rw [first?_eq_head?, List.head?_filterMap, List.findSome?_eq_none_iff]
  exact forall₂_congr fun _ _ => here?_eq_none_iff

end OldStatement

end ScriptDeps
