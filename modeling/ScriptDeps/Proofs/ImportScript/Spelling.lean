import Mathlib.Data.List.Induction
import ScriptDeps.Proofs.ImportScript.Basic
import ScriptDeps.Proofs.ImportScript.Sketch
import ScriptDeps.Proofs.Source.Spelling

/-!
# Spelling import scripts

Each part of an import script has its written tokens and its trees, given what stands before its
first token, and the sketch of import scripts spells them. Main statement: `Body.spells`.
-/

namespace ScriptDeps.ImportScript

open Source

/-- The written form of a word. -/
def word (gap : List Char) (text : String) : Stroke := ⟨.word text, gap, text.toList⟩

/-- The written form of a sign. -/
def sign (gap : List Char) (text : String) : Stroke := ⟨.sign text, gap, text.toList⟩

/-- A layout mark. -/
def mark (token : Token) : Stroke := ⟨token, [], []⟩

/-- A space. -/
def space : List Char := [' ']

/-- The leaf of a text. -/
def leaf (gap : List Char) (text : String) : Tree := .leaf gap text.toList

variable {form : List (Element Piece)} {ws ws' : List Stroke} {ts ts' : List Tree}

private theorem spells_word (gap : List Char) {text : String} (htext : text.toList ≠ [])
    (h : sketch.Spells form ws ts) :
    sketch.Spells (Piece.word text :: form) (word gap text :: ws) (leaf gap text :: ts) :=
  Sketch.Spells.leaf (w := word gap text) htext h

private theorem spells_sign (gap : List Char) {text : String} (htext : text.toList ≠ [])
    (h : sketch.Spells form ws ts) :
    sketch.Spells (Piece.sign text :: form) (sign gap text :: ws) (leaf gap text :: ts) :=
  Sketch.Spells.leaf (w := sign gap text) htext h

private theorem spells_piece {p : Piece} (inner : List (Element Piece)) (hmem : inner ∈ p.forms)
    (hinner : sketch.Spells inner ws ts) :
    sketch.Spells [.piece p] ws (sketch.wrap p ts) :=
  .single hmem hinner

/-- A series of a sketch, one part after another. -/
private theorem spells_series {α : Type} (p : Piece) (hwrap : ∀ ts, sketch.wrap p ts = ts)
    (parts : α → List (Element Piece)) {strokes : α → List Stroke} {trees : α → List Tree}
    (hone : ∀ x, parts x ∈ p.forms) (hmore : ∀ x, .piece p :: parts x ∈ p.forms)
    (h : ∀ x, sketch.Spells (parts x) (strokes x) (trees x)) (xs : List α) (hne : xs ≠ []) :
    sketch.Spells [.piece p] (xs.flatMap strokes) (xs.flatMap trees) := by
  induction xs using List.reverseRecOn with
  | nil => simp at hne
  | append_singleton xs x ih =>
    rw [List.flatMap_append, List.flatMap_append, List.flatMap_singleton, List.flatMap_singleton]
    cases xs with
    | nil =>
      rw [← hwrap (trees x)]
      exact spells_piece _ (hone x) (h x)
    | cons y xs =>
      rw [← hwrap ((y :: xs).flatMap trees ++ trees x)]
      exact spells_piece _ (hmore x) (.append (ih (by simp)) (h x))

/-! ## Names -/

namespace Name

/-- A name has a character. -/
theorem text_ne_nil (n : Name) : n.text ≠ [] := by
  intro h
  simpa [h] using n.head

/-- The written form of a name. -/
def stroke (gap : List Char) (n : Name) : Stroke := ⟨.name, gap, n.text⟩

/-- The leaf of a name. -/
def tree (gap : List Char) (n : Name) : Tree := .leaf gap n.text

/-- A name spells any name. -/
theorem spells (gap : List Char) (n : Name) (h : sketch.Spells form ws ts) :
    sketch.Spells (Piece.anyName :: form) (n.stroke gap :: ws) (n.tree gap :: ts) :=
  Sketch.Spells.leaf (w := n.stroke gap) n.text_ne_nil h

end Name

namespace Dotted

/-- The written form of what stands behind the first name. -/
def moreStrokes (n : Name) : List Stroke := [sign [] ".", n.stroke []]

/-- The written form of a dotted name. -/
def strokes (gap : List Char) (d : Dotted) : List Stroke :=
  d.first.stroke gap :: d.more.flatMap moreStrokes

/-- The trees of what stands behind the first name. -/
def moreTrees (n : Name) : List Tree := [leaf [] ".", n.tree []]

/-- The tree of a dotted name. -/
def tree (gap : List Char) (d : Dotted) : Tree :=
  .node .dottedName (d.first.tree gap :: d.more.flatMap moreTrees)

/-- A dotted name spells a dotted name in any role. -/
theorem spells (gap : List Char) (d : Dotted) (r : Role) :
    sketch.Spells [.piece (.dotted r)] (d.strokes gap) [d.tree gap] := by
  have hwrap (ts : List Tree) : sketch.wrap (.dotted r) ts = [.node .dottedName ts] := rfl
  rw [tree, ← hwrap, strokes]
  cases hmore : d.more with
  | nil =>
    refine spells_piece [Piece.anyName] (by simp [Piece.forms]) ?_
    exact d.first.spells gap .nil
  | cons n ns =>
    refine spells_piece [Piece.anyName, .piece (.tail r)] (by simp [Piece.forms]) ?_
    apply d.first.spells gap
    refine spells_series (.tail r) (fun _ => rfl) (fun _ => [Piece.sign ".", Piece.anyName])
      (by simp [Piece.forms]) (by simp [Piece.forms]) ?_ (n :: ns) (by simp)
    exact fun n => spells_sign [] (by simp) (n.spells [] .nil)

end Dotted

/-! ## What is imported -/

namespace Entry

/-- The written form of an entry. -/
def strokes (gap : List Char) (e : Entry) : List Stroke :=
  e.path.strokes gap ++ e.rename.elim [] fun n => [word space "as", n.stroke space]

/-- The tree of an entry. -/
def tree (gap : List Char) (e : Entry) : Tree :=
  e.rename.elim (e.path.tree gap) fun n =>
    .node .renamed [e.path.tree gap, leaf space "as", n.tree space]

/-- The piece that an entry is. -/
def piece (e : Entry) : Piece := e.rename.elim (.dotted .plain) fun _ => .renamed

/-- An entry spells an entry, with another name or without one. -/
theorem spells (gap : List Char) (e : Entry) :
    sketch.Spells [.piece e.piece] (e.strokes gap) [e.tree gap] := by
  rcases e with ⟨path, _ | n⟩
  · simpa [strokes, tree, piece] using path.spells gap .plain
  · have hwrap (ts : List Tree) : sketch.wrap .renamed ts = [.node .renamed ts] := rfl
    simp only [strokes, tree, piece, Option.elim_some]
    rw [← hwrap]
    refine spells_piece [.piece (.dotted .renamed), Piece.word "as", Piece.anyName]
      (by simp [Piece.forms]) ?_
    exact .append (path.spells gap .renamed)
      (spells_word space (by simp) (n.spells space .nil))

/-- The written form of an entry behind the first. -/
def moreStrokes (e : Entry) : List Stroke := sign [] "," :: e.strokes space

/-- The trees of an entry behind the first. -/
def moreTrees (e : Entry) : List Tree := [leaf [] ",", e.tree space]

end Entry

/-- The written form of entries. -/
def entryStrokes (first : Entry) (more : List Entry) : List Stroke :=
  first.strokes space ++ more.flatMap Entry.moreStrokes

/-- The trees of entries. -/
def entryTrees (first : Entry) (more : List Entry) : List Tree :=
  first.tree space :: more.flatMap Entry.moreTrees

/-- Entries with commas between them spell a list. -/
theorem spells_entries (first : Entry) (more : List Entry) :
    sketch.Spells [.piece .list] (entryStrokes first more) (entryTrees first more) := by
  have hwrap (ts : List Tree) : sketch.wrap .list ts = ts := rfl
  rw [entryStrokes, ← hwrap (entryTrees first more), entryTrees]
  cases more with
  | nil =>
    rw [List.flatMap_nil, List.flatMap_nil, List.append_nil]
    refine spells_piece [.piece first.piece] ?_ (first.spells space)
    rcases first with ⟨path, _ | n⟩ <;> simp [Piece.forms, Entry.piece]
  | cons e es =>
    refine spells_piece [.piece first.piece, .piece .items] ?_ ?_
    · rcases first with ⟨path, _ | n⟩ <;> simp [Piece.forms, Entry.piece]
    · refine .append (first.spells space) (spells_series .items (fun _ => rfl)
        (fun e => [Piece.sign ",", .piece e.piece]) ?_ ?_ ?_ (e :: es) (by simp))
      · rintro ⟨path, _ | n⟩ <;> simp [Piece.forms, Entry.piece]
      · rintro ⟨path, _ | n⟩ <;> simp [Piece.forms, Entry.piece]
      · exact fun e => spells_sign [] (by simp) (e.spells space)

/-! ## Where from -/

namespace Target

/-- What stands before the dots of a relative path. -/
def dotGaps (dots : Nat) : List (List Char) := space :: List.replicate dots []

/-- The written form of a module that names are imported from. -/
def strokes : Target → List Stroke
  | absolute path => path.strokes space
  | relative dots path =>
    (dotGaps dots).flatMap (fun gap => [sign gap "."]) ++ path.elim [] (Dotted.strokes [])

/-- The tree of a module that names are imported from. -/
def tree : Target → Tree
  | absolute path => path.tree space
  | relative dots path =>
    .node .relativePath (.node .dots ((dotGaps dots).flatMap fun gap => [leaf gap "."]) ::
      path.elim [] fun d => [d.tree []])

/-- The piece that a module is. -/
def piece : Target → Piece
  | absolute _ => .dotted .source
  | relative _ _ => .relative

/-- The module that names are imported from spells a path. -/
theorem spells : ∀ t : Target, sketch.Spells [.piece t.piece] t.strokes [t.tree]
  | absolute path => path.spells space .source
  | relative dots path => by
    have hwrap (ts : List Tree) : sketch.wrap .relative ts = [.node .relativePath ts] := rfl
    have hdots : sketch.Spells [.piece .dots] ((dotGaps dots).flatMap fun gap => [sign gap "."])
        [.node .dots ((dotGaps dots).flatMap fun gap => [leaf gap "."])] := by
      refine spells_piece [.piece .dotSeries] (by simp [Piece.forms]) ?_
      exact spells_series .dotSeries (fun _ => rfl) (fun _ => [Piece.sign "."])
        (by simp [Piece.forms]) (by simp [Piece.forms])
        (fun gap => spells_sign gap (by simp) .nil) _ (by simp [dotGaps])
    rw [strokes, tree, ← hwrap]
    cases path with
    | none =>
      refine spells_piece [.piece .dots] (by simp [Piece.forms, piece]) ?_
      simpa using hdots
    | some d =>
      refine spells_piece [.piece .dots, .piece (.dotted .source)] (by simp [Piece.forms, piece]) ?_
      exact hdots.append (d.spells [] .source)

end Target

/-! ## Statements -/

namespace Line

/-- The written form of an import statement. -/
def strokes (gap : List Char) : Line → List Stroke
  | modules first more => word gap "import" :: entryStrokes first more
  | names target first more =>
    word gap "from" ::
      (target.strokes ++ word space "import" :: entryStrokes first.entry (more.map Item.entry))
  | star target => word gap "from" :: (target.strokes ++ [word space "import", sign space "*"])
  | future first more =>
    word gap "from" :: word space "__future__" :: word space "import" ::
      entryStrokes first.entry (more.map Item.entry)

/-- The tree of an import statement. -/
def tree (gap : List Char) : Line → Tree
  | modules first more => .node .importStatement (leaf gap "import" :: entryTrees first more)
  | names target first more =>
    .node .fromStatement (leaf gap "from" :: target.tree :: leaf space "import" ::
      entryTrees first.entry (more.map Item.entry))
  | star target =>
    .node .fromStatement
      [leaf gap "from", target.tree, leaf space "import", .node .star [leaf space "*"]]
  | future first more =>
    .node .futureStatement (leaf gap "from" :: leaf space "__future__" :: leaf space "import" ::
      entryTrees first.entry (more.map Item.entry))

/-- The piece that an import statement is. -/
def piece : Line → Piece
  | modules _ _ => .modules
  | names _ _ _ | star _ => .names
  | future _ _ => .future

/-- An import statement spells a statement of its kind. -/
theorem spells (gap : List Char) :
    ∀ l : Line, sketch.Spells [.piece l.piece] (l.strokes gap) [l.tree gap]
  | modules first more =>
    spells_piece [Piece.word "import", .piece .list] (by simp [Piece.forms, piece])
      (spells_word gap (by simp) (spells_entries first more))
  | names target first more => by
    have hlist := spells_entries first.entry (more.map Item.entry)
    refine spells_piece [Piece.word "from", .piece target.piece, Piece.word "import", .piece .list]
      (by cases target <;> simp [Piece.forms, piece, Target.piece]) ?_
    exact spells_word gap (by simp)
      (.append target.spells (spells_word space (by simp) hlist))
  | star target => by
    have hstar : sketch.Spells [.piece .star] [sign space "*"] [.node .star [leaf space "*"]] :=
      spells_piece [Piece.sign "*"] (by simp [Piece.forms]) (spells_sign space (by simp) .nil)
    refine spells_piece [Piece.word "from", .piece target.piece, Piece.word "import", .piece .star]
      (by cases target <;> simp [Piece.forms, piece, Target.piece]) ?_
    exact spells_word gap (by simp)
      (.append target.spells (spells_word space (by simp) hstar))
  | future first more => by
    have hlist := spells_entries first.entry (more.map Item.entry)
    refine spells_piece
      [Piece.word "from", Piece.word "__future__", Piece.word "import", .piece .list]
      (by simp [Piece.forms, piece]) ?_
    exact spells_word gap (by simp)
      (spells_word space (by simp) (spells_word space (by simp) hlist))

end Line

namespace Opening

/-- The written form of what opens a block. -/
def strokes (gap : List Char) (name : Name) : Opening → List Stroke
  | choice => [word gap "if", name.stroke space, sign [] ":"]
  | function =>
    [word gap "def", name.stroke space, sign [] "(", sign [] ")", sign [] ":"]
  | record => [word gap "class", name.stroke space, sign [] ":"]

/-- The trees of what opens a block. -/
def trees (gap : List Char) (name : Name) : Opening → List Tree
  | choice => [leaf gap "if", name.tree space, leaf [] ":"]
  | function =>
    [leaf gap "def", name.tree space, .node .parameters [leaf [] "(", leaf [] ")"], leaf [] ":"]
  | record => [leaf gap "class", name.tree space, leaf [] ":"]

/-- The phrase of a block with what opens it. -/
def phrase : Opening → Phrase
  | choice => .ifStatement
  | function => .functionDefinition
  | record => .classDefinition

/-- The piece of a block with what opens it. -/
def piece (inner : Bool) : Opening → Piece
  | choice => .choice inner
  | function => .function inner
  | record => .record inner

/-- A block is spelled behind what opens it. -/
theorem spells (gap : List Char) (name : Name) (inner : Bool)
    (h : sketch.Spells [.piece (.block inner)] ws ts) :
    ∀ o : Opening, sketch.Spells [.piece (o.piece inner)]
      (o.strokes gap name ++ mark .indent :: ws) [.node o.phrase (o.trees gap name ++ ts)]
  | choice => by
    have hname : sketch.Spells [.piece .operand] [name.stroke space] [name.tree space] :=
      spells_piece [Piece.anyName] (by simp [Piece.forms]) (name.spells space .nil)
    have hcondition : sketch.Spells [.piece .condition] [name.stroke space] [name.tree space] :=
      spells_piece [.piece .operand] (by simp [Piece.forms]) hname
    refine spells_piece [Piece.word "if", .piece .condition, Piece.sign ":", .token .indent,
      .piece (.block inner)] (by simp [Piece.forms, piece]) ?_
    exact spells_word gap (by simp)
      (.append hcondition (spells_sign [] (by simp) (.mark .indent h)))
  | function => by
    have hparameters : sketch.Spells [.piece .parameters] [sign [] "(", sign [] ")"]
        [.node .parameters [leaf [] "(", leaf [] ")"]] :=
      spells_piece [Piece.sign "(", Piece.sign ")"] (by simp [Piece.forms])
        (spells_sign [] (by simp) (spells_sign [] (by simp) .nil))
    refine spells_piece [Piece.word "def", Piece.anyName, .piece .parameters, Piece.sign ":",
      .token .indent, .piece (.block inner)] (by simp [Piece.forms, piece]) ?_
    exact spells_word gap (by simp) (name.spells space
      (.append hparameters (spells_sign [] (by simp) (.mark .indent h))))
  | record => by
    refine spells_piece [Piece.word "class", Piece.anyName, Piece.sign ":", .token .indent,
      .piece (.block inner)] (by simp [Piece.forms, piece]) ?_
    exact spells_word gap (by simp) (name.spells space
      (spells_sign [] (by simp) (.mark .indent h)))

end Opening

/-- What stands before the first token of a line that is not the first. -/
def lineGap (depth : Nat) : List Char := '\n' :: indentation depth

mutual

/-- The written form of a statement. -/
def Statement.strokes (gap : List Char) (depth : Nat) : Statement → List Stroke
  | .line l => l.strokes gap ++ [mark .newline]
  | .block opening name body =>
    opening.strokes gap name ++
      mark .indent :: (body.strokes (lineGap (depth + 1)) (depth + 1) ++ [mark .dedent])

/-- The written form of statements. -/
def Body.strokes (gap : List Char) (depth : Nat) : Body → List Stroke
  | .one s => s.strokes gap depth
  | .more s rest => s.strokes gap depth ++ rest.strokes (lineGap depth) depth

end

mutual

/-- The tree of a statement. -/
def Statement.tree (gap : List Char) (depth : Nat) : Statement → Tree
  | .line l => l.tree gap
  | .block opening name body =>
    .node opening.phrase (opening.trees gap name ++
      [.node .block (body.trees (lineGap (depth + 1)) (depth + 1))])

/-- The trees of statements. -/
def Body.trees (gap : List Char) (depth : Nat) : Body → List Tree
  | .one s => [s.tree gap depth]
  | .more s rest => s.tree gap depth :: rest.trees (lineGap depth) depth

end

mutual

/-- The sketch spells a statement. -/
theorem Statement.spells (inner : Bool) (gap : List Char) (depth : Nat) :
    ∀ s : Statement, sketch.Spells [.piece (.statement inner)] (s.strokes gap depth)
      [s.tree gap depth]
  | .line l => by
    have hline : sketch.Spells [.piece (.line inner)] (l.strokes gap ++ [mark .newline])
        [l.tree gap] := by
      refine spells_piece [.piece l.piece, .token .newline] ?_
        (.append (l.spells gap) (.mark .newline .nil))
      cases l <;> simp [Piece.forms, Line.piece]
    exact spells_piece [.piece (.line inner)] (by simp [Piece.forms]) hline
  | .block opening name body => by
    have hbody := Body.spells true (lineGap (depth + 1)) (depth + 1) body
    have hblock : sketch.Spells [.piece (.block inner)]
        (body.strokes (lineGap (depth + 1)) (depth + 1) ++ [mark .dedent])
        [.node .block (body.trees (lineGap (depth + 1)) (depth + 1))] := by
      refine spells_piece [.piece (.statements true), .token .dedent] (by simp [Piece.forms]) ?_
      simpa [mark] using hbody.append (.mark .dedent .nil)
    refine spells_piece [.piece (opening.piece inner)] ?_ (opening.spells gap name inner hblock)
    cases opening <;> simp [Piece.forms, Opening.piece]

/-- The sketch spells statements. -/
theorem Body.spells (inner : Bool) (gap : List Char) (depth : Nat) :
    ∀ b : Body, sketch.Spells [.piece (.statements inner)] (b.strokes gap depth)
      (b.trees gap depth)
  | .one s =>
    spells_piece [.piece (.statement inner)] (by simp [Piece.forms])
      (Statement.spells inner gap depth s)
  | .more s rest =>
    have hfirst : sketch.Spells [.piece (.statements inner)] (s.strokes gap depth)
        [s.tree gap depth] :=
      spells_piece [.piece (.statement inner)] (by simp [Piece.forms])
        (Statement.spells inner gap depth s)
    Body.spells_behind inner (lineGap depth) depth hfirst rest

/-- The sketch spells statements behind other ones. -/
theorem Body.spells_behind (inner : Bool) (gap : List Char) (depth : Nat) {ws : List Stroke}
    {ts : List Tree} (h : sketch.Spells [.piece (.statements inner)] ws ts) :
    ∀ b : Body, sketch.Spells [.piece (.statements inner)] (ws ++ b.strokes gap depth)
      (ts ++ b.trees gap depth)
  | .one s =>
    spells_piece [.piece (.statements inner), .piece (.statement inner)] (by simp [Piece.forms])
      (.append h (Statement.spells inner gap depth s))
  | .more s rest => by
    have hmore : sketch.Spells [.piece (.statements inner)] (ws ++ s.strokes gap depth)
        (ts ++ [s.tree gap depth]) :=
      spells_piece [.piece (.statements inner), .piece (.statement inner)] (by simp [Piece.forms])
        (.append h (Statement.spells inner gap depth s))
    simpa [Body.strokes, Body.trees] using
      Body.spells_behind inner (lineGap depth) depth hmore rest

end

end ScriptDeps.ImportScript
