import ScriptDeps.Import.Reader

/-!
# Steps of the walk for imports

What the walk for imports does at one tree: it makes the imports of an import statement and does not
look into it, and goes on in the parts of every other phrase. The parts of a statement that imports
modules give an import each, unless they are tokens.
-/

namespace ScriptDeps

open Source

/-- The phrases that import. -/
def importing : List Phrase := [.importStatement, .fromStatement, .futureStatement]

/-- A tree is an import statement of one of the three kinds. -/
def Source.Tree.isImporting (t : Tree) : Bool := importing.any (t.isOf ·)

namespace Import

/-- The imports of a statement whose gap begins at a point. -/
def ofStatement : Position × Tree → List Import
  | (p, .node .importStatement parts) => ofModules p (.node .importStatement parts)
  | (p, .node .fromStatement parts) => ofNames p (.node .fromStatement parts)
  | (p, .node .futureStatement parts) => [ofFuture p (.node .futureStatement parts)]
  | _ => []

/-- The walk does not look into an import statement. -/
theorem ofTree_of_isImporting (p : Position) {t : Tree} (h : t.isImporting = true) :
    ofTree p t = ofStatement (p, t) := by
  cases t with
  | leaf gap text => cases h
  | node phrase parts =>
    have hcases : phrase = .importStatement ∨ phrase = .fromStatement ∨
        phrase = .futureStatement := by
      simpa [Tree.isImporting, importing, Tree.isOf] using h
    rcases hcases with rfl | rfl | rfl <;> rfl

/-- The walk goes on in the parts of every other phrase. -/
theorem ofTree_node (p : Position) {phrase : Phrase} {parts : List Tree}
    (h : (Source.Tree.node phrase parts).isImporting = false) :
    ofTree p (.node phrase parts) = ofTrees p parts := by
  unfold ofTree
  split
  · next heq => cases heq
  · next heq =>
    obtain ⟨rfl, rfl⟩ := Source.Tree.node.inj heq
    cases h
  · next heq =>
    obtain ⟨rfl, rfl⟩ := Source.Tree.node.inj heq
    cases h
  · next heq =>
    obtain ⟨rfl, rfl⟩ := Source.Tree.node.inj heq
    cases h
  · next heq =>
    obtain ⟨rfl, rfl⟩ := Source.Tree.node.inj heq
    rfl

/-- The imports in a row of trees are those of its first part, and those of the rest further on. -/
theorem ofTrees_append (p : Position) (ts us : List Tree) :
    ofTrees p (ts ++ us) = ofTrees p ts ++ ofTrees (p.pastAll ts) us := by
  induction ts generalizing p with
  | nil => rfl
  | cons t ts ih =>
    rw [List.cons_append, ofTrees, ofTrees, ih, Position.pastAll, List.append_assoc]

/-- The import of a part of a statement with some text that imports modules; a token gives none. -/
def ofPart? (raw : String) : Position × Tree → Option Import
  | (_, .leaf _ _) => none
  | (q, t) => some ⟨t.importedName.1, [], .module, q.line, q.column, raw, .unknown,
      t.importedName.2⟩

/-- The imports of a statement that imports modules are those of its parts, each at its place. -/
theorem ofModules_eq (p : Position) (statement : Tree) :
    ofModules p statement =
      (Source.Tree.located p statement.children).filterMap (ofPart? (textOf statement)) := by
  refine congrArg (List.filterMap · _) (funext fun x => ?_)
  obtain ⟨q, t⟩ := x
  cases t <;> rfl

end Import

end ScriptDeps
