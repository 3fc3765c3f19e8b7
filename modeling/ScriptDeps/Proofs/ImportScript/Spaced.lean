import ScriptDeps.Proofs.ImportScript.Reading

/-!
# Spaces in a module path

A script of one line that imports a module of a module, with any number of spaces on both sides of
the dot. Main statement: `parse?_spacedText`.
-/

namespace ScriptDeps.ImportScript

open Source

variable (first second : Name) (before behind : Nat)

/-- The written form of the line. -/
def spacedStrokes : List Stroke :=
  [word [] "import", first.stroke space, sign (spaces before) ".", second.stroke (spaces behind),
    mark .newline]

/-- The tree of the line. -/
def spacedTree : Tree :=
  .node .importStatement [leaf [] "import", .node .dottedName
    [first.tree space, leaf (spaces before) ".", second.tree (spaces behind)]]

/-- The script. -/
def spacedText : List Char := charsOf (spacedStrokes first second before behind) ++ ['\n']

private theorem spells_spaced : sketch.Spells [.piece (.statements false)]
    (spacedStrokes first second before behind) [spacedTree first second before behind] := by
  have hmore : sketch.Spells [.piece (.tail .plain)]
      [sign (spaces before) ".", second.stroke (spaces behind)]
      [leaf (spaces before) ".", second.tree (spaces behind)] := by
    have hform : [Piece.sign ".", Piece.anyName] ∈ sketch.forms (.tail .plain) :=
      List.mem_cons_self
    exact .single hform (.leaf (w := sign (spaces before) ".") (List.cons_ne_nil '.' [])
      (second.spells (spaces behind) .nil))
  have hpath : sketch.Spells [.piece (.dotted .plain)] [first.stroke space,
      sign (spaces before) ".", second.stroke (spaces behind)] [.node .dottedName
        [first.tree space, leaf (spaces before) ".", second.tree (spaces behind)]] := by
    have hform : [Piece.anyName, .piece (.tail .plain)] ∈ sketch.forms (.dotted .plain) :=
      List.mem_cons_of_mem _ List.mem_cons_self
    exact .single hform (first.spells space hmore)
  have hlist : sketch.Spells [.piece .list] [first.stroke space,
      sign (spaces before) ".", second.stroke (spaces behind)] [.node .dottedName
        [first.tree space, leaf (spaces before) ".", second.tree (spaces behind)]] := by
    have hform : [.piece (.dotted .plain)] ∈ sketch.forms .list := List.mem_cons_self
    exact .single hform hpath
  have hmodules : sketch.Spells [.piece .modules] [word [] "import", first.stroke space,
      sign (spaces before) ".", second.stroke (spaces behind)]
      [spacedTree first second before behind] := by
    have hform : [Piece.word "import", .piece .list] ∈ sketch.forms .modules := List.mem_cons_self
    exact .single hform (.leaf (w := word [] "import") (by decide) hlist)
  have hline : sketch.Spells [.piece (.line false)] (spacedStrokes first second before behind)
      [spacedTree first second before behind] := by
    have hform : [.piece .modules, .token .newline] ∈ sketch.forms (.line false) :=
      List.mem_cons_self
    exact .single hform (hmodules.append (.mark .newline .nil))
  have hstatement : [.piece (.line false)] ∈ sketch.forms (.statement false) := List.mem_cons_self
  have hstatements : [.piece (.statement false)] ∈ sketch.forms (.statements false) :=
    List.mem_cons_self
  exact .single hstatements (.single hstatement hline)

private theorem readAs_spaced : ReadAs AllRead .none (spacedText first second before behind)
    (spacedStrokes first second before behind ++ [finish]) := by
  have hend : LineEnd 0 ['\n'] := .finish
  have hfinish : ReadAs AllRead (.blocks (indentsAt 0)) ['\n'] [mark .newline, finish] :=
    .cons _ ⟨rfl, rfl, rfl⟩ (fun e he => first?_newline he hend)
      (.cons _ ⟨rfl, rfl, rfl⟩ (fun e he => first?_finish he) rfl)
  have hdot : InLine (indentsAt 0) Ended
      ([sign (spaces before) "."] ++ [second.stroke (spaces behind)]) :=
    (inLine_sign (by decide) rfl before).append (second.inLine behind) fun rest _ =>
      second.apart behind [] rest
  have hfirst : InLine (indentsAt 0) Ended ([first.stroke space] ++
      ([sign (spaces before) "."] ++ [second.stroke (spaces behind)])) :=
    (first.inLine 1).append hdot fun _ _ => by cases before <;> exact ⟨_, _, rfl, rfl⟩
  have himport : InLine (indentsAt 0) Ended [word [] "import"] :=
    inLine_start (.inl rfl) (by decide) (by decide) (by decide)
  have hline := himport.append hfirst (fun _ _ => ⟨' ', _, rfl, rfl⟩) _ _ _
    (ended_of_lineEnd hend) hfinish
  have hread : ReadAs AllRead (.blocks (indentsAt 0)) (spacedText first second before behind)
      (spacedStrokes first second before behind ++ [finish]) := by
    simpa [spacedText, spacedStrokes, charsOf_cons, mark, charsOf] using hline
  exact hread

/-- The tree of the script. -/
theorem parse?_spacedText : parse? (spacedText first second before behind) =
    some (.node .script [spacedTree first second before behind, .leaf ['\n'] []]) := by
  obtain ⟨reads, hsuits⟩ := suits_sketch
  exact Sketch.parse?_of_spells isCoherent_sketch hsuits rfl (List.mem_singleton.2 rfl)
    (List.mem_singleton.2 rfl) (spells_spaced first second before behind) nofun
    (readAs_spaced first second before behind)

end ScriptDeps.ImportScript
