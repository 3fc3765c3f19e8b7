import ScriptDeps.Proofs.ImportScript.Reading
import ScriptDeps.Proofs.OldScript.Sketch

/-!
# A script of the older language

A script that imports, with a condition in whose block it imports again and then executes a text.
Main statement: `parse?_text`, its tree for all names in it.
-/

namespace ScriptDeps.OldScript

open Source Automaton ImportScript

/-- The written form of a line of a word and a name. -/
def lineStrokes (gap : List Char) (text : String) (n : Name) : List Stroke :=
  [ImportScript.word gap text, n.stroke space]

/-- The tree of an import of one module. -/
def importTree (gap : List Char) (n : Name) : Tree :=
  .node .importStatement [leaf gap "import", .node .dottedName [n.tree space]]

/-- The tree of an exec statement. -/
def execTree (gap : List Char) (n : Name) : Tree :=
  .node .execStatement [leaf gap "exec", n.tree space]

variable (module choice inner code : Name)

/-- The written form of the lines in the block. -/
def blockStrokes : List Stroke :=
  lineStrokes (lineGap 1) "import" inner ++ [mark .newline] ++
    (lineStrokes (lineGap 1) "exec" code ++ [mark .newline])

/-- The written form of the script. -/
def strokes : List Stroke :=
  lineStrokes [] "import" module ++ [mark .newline] ++
    (lineStrokes (lineGap 0) "if" choice ++ [sign [] ":", mark .indent] ++
      (blockStrokes inner code ++ [mark .dedent]))

/-- The trees of the script. -/
def trees : List Tree :=
  [importTree [] module,
    .node .ifStatement [leaf (lineGap 0) "if", choice.tree space, leaf [] ":",
      .node .block [importTree (lineGap 1) inner, execTree (lineGap 1) code]]]

/-- The text of the script. -/
def text : List Char := charsOf (strokes module choice inner code) ++ ['\n']

/-- The tree of the script. -/
def tree : Tree := .node .script (trees module choice inner code ++ [.leaf ['\n'] []])

private theorem spells_word (gap : List Char) {text : String} (htext : text.toList ≠ [])
    {form : List (Element Piece)} {ws : List Stroke} {ts : List Tree}
    (h : sketch.Spells form ws ts) :
    sketch.Spells (.token (.word text) :: form) (ImportScript.word gap text :: ws)
      (leaf gap text :: ts) :=
  Sketch.Spells.leaf (w := ImportScript.word gap text) htext h

private theorem spells_name (n : Name) {form : List (Element Piece)} {ws : List Stroke}
    {ts : List Tree} (h : sketch.Spells form ws ts) :
    sketch.Spells (.token .name :: form) (n.stroke space :: ws) (n.tree space :: ts) :=
  Sketch.Spells.leaf (w := n.stroke space) n.text_ne_nil h

/-- A line that imports is spelled as a statement, in the block or not. -/
private theorem spells_import (inner : Bool) (gap : List Char) (n : Name) :
    sketch.Spells [.piece (.statement inner)] (lineStrokes gap "import" n ++ [mark .newline])
      [importTree gap n] := by
  have hpath : sketch.Spells [.piece .dotted] [n.stroke space]
      [.node .dottedName [n.tree space]] := by
    have hform : [.token .name] ∈ sketch.forms .dotted := List.mem_cons_self
    exact .single hform (spells_name n .nil)
  have hlist : sketch.Spells [.piece .list] [n.stroke space]
      [.node .dottedName [n.tree space]] := by
    have hform : [.piece .dotted] ∈ sketch.forms .list := List.mem_cons_self
    exact .single hform hpath
  have himport : sketch.Spells [.piece .modules] (lineStrokes gap "import" n)
      [importTree gap n] := by
    have hform : [.token (.word "import"), .piece .list] ∈ sketch.forms .modules :=
      List.mem_cons_self
    exact .single hform (spells_word gap (by simp) hlist)
  have hline : sketch.Spells [.piece (.line inner)]
      (lineStrokes gap "import" n ++ [mark .newline]) [importTree gap n] := by
    have hform : [.piece .modules, .token .newline] ∈ sketch.forms (.line inner) :=
      List.mem_cons_self
    exact .single hform (himport.append (.mark .newline .nil))
  have hform : [.piece (.line inner)] ∈ sketch.forms (.statement inner) := by
    cases inner <;> exact List.mem_cons_self
  exact .single hform hline

/-- An exec statement is spelled as a statement in the block. -/
private theorem spells_exec (gap : List Char) (n : Name) :
    sketch.Spells [.piece (.statement true)] (lineStrokes gap "exec" n ++ [mark .newline])
      [execTree gap n] := by
  have hexec : sketch.Spells [.piece .exec] (lineStrokes gap "exec" n) [execTree gap n] := by
    have hform : [.token (.word "exec"), .token .name] ∈ sketch.forms .exec := List.mem_cons_self
    exact .single hform (spells_word gap (by simp) (spells_name n .nil))
  have hline : sketch.Spells [.piece (.line true)]
      (lineStrokes gap "exec" n ++ [mark .newline]) [execTree gap n] := by
    have hform : [.piece .exec, .token .newline] ∈ sketch.forms (.line true) :=
      List.mem_cons_of_mem _ List.mem_cons_self
    exact .single hform (hexec.append (.mark .newline .nil))
  have hform : [.piece (.line true)] ∈ sketch.forms (.statement true) := List.mem_cons_self
  exact .single hform hline

/-- Two statements, in the block or not. -/
private theorem spells_two (inner : Bool) {ws ws' : List Stroke} {ts ts' : List Tree}
    (h : sketch.Spells [.piece (.statement inner)] ws ts)
    (h' : sketch.Spells [.piece (.statement inner)] ws' ts') :
    sketch.Spells [.piece (.statements inner)] (ws ++ ws') (ts ++ ts') := by
  have hone : sketch.Spells [.piece (.statements inner)] ws ts := by
    have hform : [.piece (.statement inner)] ∈ sketch.forms (.statements inner) :=
      List.mem_cons_self
    exact .single hform h
  have hform : [.piece (.statements inner), .piece (.statement inner)] ∈
      sketch.forms (.statements inner) := List.mem_cons_of_mem _ List.mem_cons_self
  exact .single hform (hone.append h')

/-- The block is spelled behind its condition. -/
private theorem spells_choice {gap : List Char} {n : Name} {ws : List Stroke} {ts : List Tree}
    (h : sketch.Spells [.piece (.statements true)] ws ts) :
    sketch.Spells [.piece (.statement false)]
      (lineStrokes gap "if" n ++ [sign [] ":", mark .indent] ++ (ws ++ [mark .dedent]))
      [.node .ifStatement [leaf gap "if", n.tree space, leaf [] ":", .node .block ts]] := by
  have hblock : sketch.Spells [.piece .block] (ws ++ [mark .dedent]) [.node .block ts] := by
    have hform : [.piece (.statements true), .token .dedent] ∈ sketch.forms .block :=
      List.mem_cons_self
    have hinner := h.append (.mark .dedent .nil)
    rw [List.append_nil] at hinner
    exact .single hform hinner
  have hcondition : sketch.Spells [.piece .condition] [n.stroke space] [n.tree space] := by
    have hoperand : [.token .name] ∈ sketch.forms .operand := List.mem_cons_self
    have hform : [.piece .operand] ∈ sketch.forms .condition := List.mem_cons_self
    exact .single hform (.single hoperand (spells_name n .nil))
  have hcolon : sketch.Spells (.token (.sign ":") :: .token .indent :: [.piece .block])
      (sign [] ":" :: mark .indent :: (ws ++ [mark .dedent])) [leaf [] ":", .node .block ts] :=
    Sketch.Spells.leaf (w := sign [] ":") (by decide) (.mark .indent hblock)
  have hchoice : sketch.Spells [.piece .choice]
      (lineStrokes gap "if" n ++ [sign [] ":", mark .indent] ++ (ws ++ [mark .dedent]))
      [.node .ifStatement [leaf gap "if", n.tree space, leaf [] ":", .node .block ts]] := by
    have hform : [.token (.word "if"), .piece .condition, .token (.sign ":"), .token .indent,
        .piece .block] ∈ sketch.forms .choice := List.mem_cons_self
    exact .single hform (spells_word gap (by simp) (hcondition.append hcolon))
  have hform : [.piece .choice] ∈ sketch.forms (.statement false) :=
    List.mem_cons_of_mem _ List.mem_cons_self
  exact .single hform hchoice

private theorem spells_strokes : sketch.Spells [.piece (.statements false)]
    (strokes module choice inner code) (trees module choice inner code) :=
  spells_two false (spells_import false [] module)
    (spells_choice (spells_two true (spells_import true (lineGap 1) inner)
      (spells_exec (lineGap 1) code)))

/-! ## The characters -/

/-- A line end in front of a line of a word. -/
private theorem lineEnd_word (depth : Nat) (text : String)
    (htext : text.toList.head?.any isVisible = true) (ws : List Stroke) (rest : List Char) :
    LineEnd (4 * depth) (charsOf (ImportScript.word (lineGap depth) text :: ws) ++ rest) := by
  rw [charsOf_cons, ImportScript.word]
  cases hlist : text.toList with
  | nil => simp [hlist] at htext
  | cons c t =>
    have hc : isVisible c = true := by simpa [hlist] using htext
    simpa [lineGap, indentation, spaces] using
      LineEnd.token hc (4 * depth) (t ++ (charsOf ws ++ rest))

/-- A line of a word and a name is read in front of a line end. -/
private theorem readAs_line {depth width : Nat} {gap rest : List Char} {ws : List Stroke}
    (hgap : StartsLine depth gap) (hdepth : depth < 64) (text : String) (hne : text ≠ "as")
    (htext : isPlain text = true) (n : Name) (hrest : LineEnd width rest)
    (h : ReadAs AllRead (.blocks (indentsAt depth)) rest ws) :
    ReadAs AllRead (.blocks (indentsAt depth))
      (charsOf (lineStrokes gap text n ++ [mark .newline]) ++ rest)
      (lineStrokes gap text n ++ [mark .newline] ++ ws) := by
  have hline : InLine (indentsAt depth) Ended (lineStrokes gap text n) :=
    (inLine_start hgap hdepth hne htext).append (n.inLine 1) fun _ _ => ⟨' ', _, rfl, rfl⟩
  have hmark : ReadAs AllRead (.blocks (indentsAt depth)) rest (mark .newline :: ws) :=
    .cons _ ⟨rfl, rfl, rfl⟩ (fun e he => first?_newline he hrest) h
  have hread := hline _ rest _ (ended_of_lineEnd hrest) hmark
  rw [charsOf_append, List.append_assoc, List.append_assoc]
  exact hread

private theorem readAs_block : ReadAs AllRead (.blocks (indentsAt 1))
    (charsOf (blockStrokes inner code) ++ ['\n'])
    (blockStrokes inner code ++ [mark .dedent, finish]) := by
  have hfinish : ReadAs AllRead (.blocks (indentsAt 0)) ['\n'] [finish] :=
    .cons _ ⟨rfl, rfl, rfl⟩ (fun e he => first?_finish he) rfl
  have hdedent : ReadAs AllRead (.blocks (indentsAt 1)) ['\n'] [mark .dedent, finish] :=
    .cons _ ⟨rfl, rfl, rfl⟩ (fun e he => first?_dedent he .finish (by decide) (by decide)) hfinish
  have hexec := readAs_line (.inr rfl) (by decide) "exec" (by decide) (by decide) code .finish
    hdedent
  have hend := lineEnd_word 1 "exec" (by decide) [code.stroke space, mark .newline] ['\n']
  have himport := readAs_line (.inr rfl) (by decide) "import" (by decide) (by decide) inner hend
    hexec
  rw [blockStrokes, charsOf_append, List.append_assoc, List.append_assoc]
  exact himport

private theorem readAs_choice : ReadAs AllRead (.blocks (indentsAt 0))
    (charsOf (lineStrokes (lineGap 0) "if" choice ++ [sign [] ":", mark .indent] ++
      (blockStrokes inner code ++ [mark .dedent])) ++ ['\n'])
    (lineStrokes (lineGap 0) "if" choice ++ [sign [] ":", mark .indent] ++
      (blockStrokes inner code ++ [mark .dedent]) ++ [finish]) := by
  have hend : LineEnd 4 (charsOf (blockStrokes inner code) ++ ['\n']) :=
    lineEnd_word 1 "import" (by decide) _ _
  have hopening :=
    Opening.choice.readAs (.inr rfl) (by decide) hend (readAs_block inner code) choice
  simpa [lineStrokes, Opening.strokes, charsOf_append, charsOf_cons, mark, charsOf] using hopening

private theorem readAs_strokes : ReadAs AllRead .none (text module choice inner code)
    (strokes module choice inner code ++ [finish]) := by
  have hend := lineEnd_word 0 "if" (by decide) ([choice.stroke space, sign [] ":", mark .indent] ++
    (blockStrokes inner code ++ [mark .dedent])) ['\n']
  have himport := readAs_line (.inl rfl) (by decide) "import" (by decide) (by decide) module hend
    (readAs_choice choice inner code)
  rw [text, strokes, charsOf_append, List.append_assoc, List.append_assoc]
  exact himport

/-- The tree of the script. -/
theorem parse?_text :
    parse? (text module choice inner code) = some (tree module choice inner code) := by
  obtain ⟨reads, hsuits⟩ := suits_sketch
  have hform : [.piece (.statements false)] ∈ sketch.forms .script := List.mem_cons_self
  have hfollow : .finish ∈ sketch.follow .script := List.mem_cons_self
  exact Sketch.parse?_of_spells isCoherent_sketch hsuits rfl hfollow hform
    (spells_strokes module choice inner code) nofun (readAs_strokes module choice inner code)

end ScriptDeps.OldScript
