import ScriptDeps.Proofs.Import.Places
import ScriptDeps.Proofs.ImportScript.Depth
import ScriptDeps.Proofs.ImportScript.Imports

/-!
# Imports of printed scripts

The imports that are read from the text of an import script are its imports, in the order of the
text, as long as fewer than 64 blocks stand in one another: the indentation of a block counts modulo
256. From 64 blocks on the text is refused. Main statement: `ofSource_print_eq`.
-/

namespace ScriptDeps.ImportScript

open Source

/-- The text of statements has their trees. -/
theorem parse?_body (b : Body) (hdepth : b.depth < 64) :
    parse? (print ⟨some b⟩) = some (.node .script (b.trees [] 0 ++ [.leaf ['\n'] []])) := by
  obtain ⟨reads, hsuits⟩ := suits_sketch
  rw [print_eq]
  exact Sketch.parse?_of_spells isCoherent_sketch hsuits rfl (List.mem_singleton.2 rfl)
    (List.mem_singleton.2 rfl) (Body.spells false [] 0 b) (b.head?_charsOf_ne _)
    (readAs_body b hdepth)

/-- The imports in the text of statements are those of the statements. -/
theorem ofSource_body (b : Body) (hdepth : b.depth < 64) :
    Import.ofSource (print ⟨some b⟩) = .ok (b.imports 1 0) := by
  have hold : OldStatement.first? .start (.node .script (b.trees [] 0 ++ [.leaf ['\n'] []])) =
      none := by
    have hnode : OldStatement.first? .start (.node .script (b.trees [] 0 ++ [.leaf ['\n'] []])) =
        OldStatement.firstOf? .start (b.trees [] 0 ++ [.leaf ['\n'] []]) := rfl
    rw [hnode, firstOf?_append, firstOf?_of_spells (Body.spells false [] 0 b), Option.none_or]
    rfl
  have himports : Import.ofTree .start (.node .script (b.trees [] 0 ++ [.leaf ['\n'] []])) =
      b.imports 1 0 := by
    have hnode : Import.ofTree .start (.node .script (b.trees [] 0 ++ [.leaf ['\n'] []])) =
        Import.ofTrees .start (b.trees [] 0 ++ [.leaf ['\n'] []]) := rfl
    have hbody : Import.ofTrees .start (b.trees [] 0) = b.imports 1 0 :=
      (Body.ofTrees_trees 0 rfl b).1
    rw [hnode, Import.ofTrees_append, hbody]
    exact List.append_nil _
  rw [Import.ofSource, parse?_body b hdepth]
  simp only [hold, himports]

/-- The text of statements in which too many blocks stand in one another is refused. -/
theorem ofSource_deep (b : Body) (hdeep : 64 ≤ b.depth) :
    Import.ofSource (print ⟨some b⟩) = .error .malformed := by
  rw [Import.ofSource, parse?_deep b hdeep]

/-- The imports in the text of a script are those of the script, unless 64 blocks stand in one
another: then the text is refused. -/
theorem ofSource_print_eq (p : ImportScript) :
    Import.ofSource p.print = if p.depth < 64 then .ok p.imports else .error .malformed := by
  rcases p with ⟨_ | b⟩
  · exact ofSource_nil
  · have hdepth : depth ⟨some b⟩ = b.depth := rfl
    rw [hdepth]
    split
    · next hless => exact ofSource_body b hless
    · next hdeep => exact ofSource_deep b (Nat.not_lt.1 hdeep)

/-- A script with imports in a function and in a condition in it, and a script whose import stands
in 64 conditions. -/
theorem ofSource_print_nested :
    let os : Name := ⟨['o', 's'], rfl, rfl, by decide⟩
    let np : Name := ⟨['n', 'p'], rfl, rfl, by decide⟩
    let ok : Name := ⟨['o', 'k'], rfl, rfl, by decide⟩
    let modules : Line := .modules ⟨⟨os, [np]⟩, none⟩ [⟨⟨np, []⟩, some ok⟩]
    let names : Line := .names (.relative 1 (some ⟨os, []⟩)) ⟨np, some ok⟩ [⟨ok, none⟩]
    let star : Line := .star (.relative 0 none)
    let inner : Body := .more (.line names) (.one (.block .choice ok (.one (.line star))))
    let p : ImportScript := ⟨some (.more (.line modules) (.one (.block .function np inner)))⟩
    let deep : ImportScript :=
      ⟨some ((fun b => .one (.block .choice ok b))^[64] (.one (.line modules)))⟩
    String.ofList p.print =
        "import os.np, np as ok\n" ++ "def np():\n" ++ "    from ..os import np as ok, ok\n" ++
          "    if ok:\n" ++ "        from . import *\n" ∧
      Import.ofSource p.print = .ok
        [⟨"os.np", [], .module, 1, 7, "import os.np, np as ok", .unknown, none⟩,
          ⟨"np", [], .module, 1, 14, "import os.np, np as ok", .unknown, some "ok"⟩,
          ⟨"..os", ["np", "ok"], .names, 3, 4, "from ..os import np as ok, ok", .unknown, none⟩,
          ⟨".", ["*"], .names, 5, 8, "from . import *", .unknown, none⟩] ∧
      deep.imports.length = 2 ∧ Import.ofSource deep.print = .error .malformed :=
  ⟨by decide +kernel, (ofSource_print_eq _).trans (if_pos (by decide)), by decide,
    (ofSource_print_eq _).trans (if_neg (by decide))⟩

end ScriptDeps.ImportScript
