import ScriptDeps.Proofs.ImportScript.Printing
import ScriptDeps.Proofs.ImportScript.Reading
import ScriptDeps.Proofs.Source.Balance

/-!
# Deep import scripts

The body of the 64th block in one another stands behind 256 spaces, which count as none. The text of
a script is read up to there as its written tokens, and from there on no reading gives a tree. Main
statement: `parse?_deep`.
-/

namespace ScriptDeps.ImportScript

open Source

/-- The indentation of 64 blocks counts as none for the innermost one. -/
theorem isEndless_indentsAt : (Nesting.blocks (indentsAt 64)).IsEndless := by
  have hcons : indentsAt 64 = 0 :: indentsAt 63 := rfl
  rw [Nesting.IsEndless, Nesting.blocks, hcons]
  exact List.mem_cons_self

mutual

/-- A statement in which too many blocks stand in one another is read up to the first block that
counts as not indented. -/
theorem Statement.readAs_deep {depth : Nat} {gap : List Char} (hgap : StartsLine depth gap)
    (hdepth : depth < 64) (rest : List Char) (ws : List Stroke) :
    ∀ s : Statement, 64 ≤ depth + s.depth → ReadAs EndlesslyLeft (.blocks (indentsAt depth))
      (charsOf (s.strokes gap depth) ++ rest) (s.strokes gap depth ++ ws)
  | .line l, hdeep => absurd hdeep (Nat.not_le.2 hdepth)
  | .block opening name body, hdeep => by
    rw [Statement.depth] at hdeep
    have hbody : ReadAs EndlesslyLeft (.blocks (indentsAt (depth + 1)))
        (charsOf (body.strokes (lineGap (depth + 1)) (depth + 1)) ++ rest)
        (body.strokes (lineGap (depth + 1)) (depth + 1) ++ mark .dedent :: ws) := by
      by_cases hlast : depth + 1 = 64
      · rw [hlast]
        exact .leave ⟨List.append_ne_nil_of_right_ne_nil _ (List.cons_ne_nil _ _),
          isEndless_indentsAt⟩
      · exact Body.readAs_deep (.inr rfl) (by omega) rest _ body (by omega)
    have hopening := opening.readAs hgap hdepth (lineEnd_body (depth + 1) rest body) hbody name
    simpa [Statement.strokes, charsOf_append, charsOf_cons, mark, charsOf] using hopening

/-- Statements in which too many blocks stand in one another are read up to the first block that
counts as not indented. -/
theorem Body.readAs_deep {depth : Nat} {gap : List Char} (hgap : StartsLine depth gap)
    (hdepth : depth < 64) (rest : List Char) (ws : List Stroke) :
    ∀ b : Body, 64 ≤ depth + b.depth → ReadAs EndlesslyLeft (.blocks (indentsAt depth))
      (charsOf (b.strokes gap depth) ++ rest) (b.strokes gap depth ++ ws)
  | .one s, hdeep => Statement.readAs_deep hgap hdepth rest ws s hdeep
  | .more s rest', hdeep => by
    rw [Body.depth] at hdeep
    rw [Body.strokes, charsOf_append, List.append_assoc, List.append_assoc]
    by_cases hfirst : 64 ≤ depth + s.depth
    · exact Statement.readAs_deep hgap hdepth _ _ s hfirst
    · have hmore := Body.readAs_deep (.inr rfl) hdepth rest ws rest' (by omega)
      exact Statement.readAs hgap (lineEnd_body depth rest rest') (Nat.le_refl _) hmore s (by omega)

end

/-- Statements in which too many blocks stand in one another have no tree. -/
theorem parse?_deep (b : Body) (hdeep : 64 ≤ b.depth) : parse? (print ⟨some b⟩) = none := by
  obtain ⟨reads, hsuits⟩ := suits_sketch
  have hread : ReadAs EndlesslyLeft (.blocks (indentsAt 0)) (charsOf (b.strokes [] 0) ++ ['\n'])
      (b.strokes [] 0 ++ [finish]) :=
    Body.readAs_deep (.inl rfl) (by decide) ['\n'] [finish] b (by omega)
  rw [print_eq]
  exact Sketch.parse?_eq_none_of_spells isCoherent_sketch hsuits (List.mem_singleton.2 rfl)
    (Body.spells false [] 0 b) (List.mem_singleton.2 rfl) (b.head?_charsOf_ne _) hread

end ScriptDeps.ImportScript
