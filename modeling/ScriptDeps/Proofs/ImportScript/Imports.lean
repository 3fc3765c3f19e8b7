import ScriptDeps.Proofs.Import.Steps
import ScriptDeps.Proofs.ImportScript.Printing
import ScriptDeps.Proofs.Source.Taking

/-!
# Imports in the trees of import scripts

The trees of an import script hold its imports, each with its place in the printed text, and no
statement of an older form. A statement is followed from the point where its first token stands, so
that a point is a line and a number of spaces. Main statements: `Body.ofTrees_trees` and
`firstOf?_of_spells`.
-/

namespace ScriptDeps.ImportScript

open Source

/-! ## Texts on one line -/

/-- A character of the basic alphabet that does not end a line. -/
def isInline (c : Char) : Bool := decide (c.toNat < 128) && c != '\n'

/-- A text of the basic alphabet on one line is passed by its length. -/
theorem advance_of_isInline (p : Position) {s : List Char} (hs : s.all isInline = true) :
    p.advance s = ⟨p.line, p.column + s.length⟩ := by
  induction s generalizing p with
  | nil => rfl
  | cons c s ih =>
    rw [List.all_cons, Bool.and_eq_true, isInline, Bool.and_eq_true, decide_eq_true_eq,
      bne_iff_ne] at hs
    obtain ⟨⟨hlt, hne⟩, hs⟩ := hs
    have hsize : c.utf8Size = 1 := by
      rw [Char.utf8Size_eq_one_iff, UInt32.le_iff_toNat_le]
      exact Nat.le_of_lt_succ hlt
    have hnext : p.next c = ⟨p.line, p.column + 1⟩ := by
      rw [Position.next, if_neg hne, hsize]
    have hcons : p.advance (c :: s) = (p.next c).advance s := rfl
    rw [hcons, hnext, ih _ hs, List.length_cons, Nat.add_assoc, Nat.add_comm 1]

private theorem isInline_of_isWordChar {c : Char} (hc : isWordChar c = true) :
    isInline c = true := by
  rw [isInline, Bool.and_eq_true, decide_eq_true_eq, bne_iff_ne]
  refine ⟨lt_of_isWordChar hc, ?_⟩
  rintro rfl
  exact absurd hc (by decide)

/-- A name stands on one line. -/
@[simp]
theorem Name.all_isInline (n : Name) : n.text.all isInline = true :=
  List.all_eq_true.2 fun c hc => isInline_of_isWordChar (List.all_eq_true.1 n.tail c hc)

/-- A dotted name stands on one line. -/
@[simp]
theorem Dotted.all_isInline (d : Dotted) : d.text.all isInline = true := by
  have hpoint : isInline '.' = true := by decide
  simp [text, List.all_flatMap, hpoint]

/-- What is imported stands on one line. -/
@[simp]
theorem Entry.all_isInline (e : Entry) : e.text.all isInline = true := by
  have has : " as ".toList.all isInline = true := by decide
  cases hrename : e.rename with
  | none => simp [text, ending, hrename]
  | some n => rw [text, ending, hrename, Option.elim_some, List.all_append, List.all_append, has,
      e.path.all_isInline, n.all_isInline]; rfl

/-- Entries with commas between them stand on one line. -/
@[simp]
theorem entriesText_all_isInline (first : Entry) (more : List Entry) :
    (entriesText first more).all isInline = true := by
  have hcomma : ", ".toList.all isInline = true := by decide
  rw [entriesText, List.all_append, first.all_isInline, Bool.true_and, List.all_flatMap,
    List.all_eq_true]
  intro e _
  rw [List.all_append, hcomma, e.all_isInline, Bool.true_and]

/-- The module that names are imported from stands on one line. -/
@[simp]
theorem Target.all_isInline : ∀ t : Target, t.text.all isInline = true
  | absolute path => path.all_isInline
  | relative dots path => by
    have hpoint : isInline '.' = true := by decide
    cases path <;> simp [text, hpoint]

/-- An import statement stands on one line. -/
theorem Line.all_isInline (l : Line) : l.text.all isInline = true := by
  have himport : "import ".toList.all isInline = true := by decide
  have hfrom : "from ".toList.all isInline = true := by decide
  have hnames : " import ".toList.all isInline = true := by decide
  have hstar : " import *".toList.all isInline = true := by decide
  have hfuture : "from __future__ import ".toList.all isInline = true := by decide
  unfold text
  cases l <;> simp only [List.all_append, himport, hfrom, hnames, hstar, hfuture,
    entriesText_all_isInline, Target.all_isInline, Bool.and_self]

/-- What opens a block stands on one line. -/
theorem Opening.all_isInline (name : Name) (o : Opening) : (o.text name).all isInline = true := by
  have hif : "if ".toList.all isInline = true := by decide
  have hdef : "def ".toList.all isInline = true := by decide
  have hclass : "class ".toList.all isInline = true := by decide
  have hcolon : ":".toList.all isInline = true := by decide
  have hcall : "():".toList.all isInline = true := by decide
  unfold text
  cases o <;> simp only [List.all_append, hif, hdef, hclass, hcolon, hcall, Name.all_isInline,
    Bool.and_self]

/-! ## Texts of trees -/

/-- A tree has a text behind a gap. -/
structure IsText (t : Tree) (gap text : List Char) : Prop where
  /-- The gap. -/
  gap_eq : t.gap = gap
  /-- The gap and the text. -/
  chars_eq : t.chars = gap ++ text

namespace IsText

variable {t : Tree} {gap text : List Char}

/-- The text of a tree is told without its gap. -/
theorem textOf_eq (h : IsText t gap text) : textOf t = String.ofList text := by
  rw [textOf, Tree.text, h.gap_eq, h.chars_eq, List.drop_left]

/-- A tree stands behind its gap. -/
theorem ofTree_eq (h : IsText t gap text) (p : Position) : p.ofTree t = p.advance gap := by
  rw [Position.ofTree, h.gap_eq]

/-- Behind a tree on one line the column has grown by its length. -/
theorem past_eq (h : IsText t gap text) (p : Position) (htext : text.all isInline = true) :
    p.past t = ⟨(p.advance gap).line, (p.advance gap).column + text.length⟩ := by
  rw [Position.past_eq_advance, h.chars_eq, Position.advance_append, advance_of_isInline _ htext]

/-- What is spelled in one tree has its characters. -/
theorem of_spells {form : List (Element Piece)} {ws : List Stroke}
    (h : sketch.Spells form ws [t]) (hgap : t.gap = gap) (hchars : charsOf ws = gap ++ text) :
    IsText t gap text := by
  have hall := h.charsOfAll_eq
  rw [Tree.charsOfAll, Tree.charsOfAll, List.append_nil] at hall
  exact ⟨hgap, hall.trans hchars⟩

end IsText

/-- The tree of a dotted name has its text. -/
theorem Dotted.isText (gap : List Char) (d : Dotted) : IsText (d.tree gap) gap d.text :=
  .of_spells (d.spells gap .plain) rfl (d.charsOf_strokes gap)

/-- The tree of an entry has its text. -/
theorem Entry.isText (gap : List Char) (e : Entry) : IsText (e.tree gap) gap e.text := by
  refine .of_spells (e.spells gap) ?_ (e.charsOf_strokes gap)
  rcases e with ⟨path, _ | n⟩ <;> rfl

/-- The tree of a statement has its text. -/
theorem Line.isText (gap : List Char) (l : Line) : IsText (l.tree gap) gap l.text := by
  refine .of_spells (l.spells gap) ?_ (l.charsOf_strokes gap)
  cases l <;> rfl

/-! ## Imports of a statement -/

/-- The tree of an entry says what is imported, and under which name. -/
theorem Entry.importedName_tree (gap : List Char) (e : Entry) :
    (e.tree gap).importedName =
      (String.ofList e.path.text, e.rename.map fun n => String.ofList n.text) := by
  rcases e with ⟨path, _ | n⟩
  · exact congrArg (·, none) (path.isText gap).textOf_eq
  · have hname : IsText (n.tree space) space n.text := ⟨rfl, rfl⟩
    have hpath : ((path.tree gap).importedName.1, some (textOf (n.tree space))) =
        (String.ofList path.text, some (String.ofList n.text)) := by
      rw [hname.textOf_eq]
      exact congrArg (·, _) (path.isText gap).textOf_eq
    exact hpath

private theorem ofPart?_tree (raw : String) (p : Position) (gap : List Char) (e : Entry) :
    Import.ofPart? raw (p, e.tree gap) = some ⟨String.ofList e.path.text, [], .module, p.line,
      p.column, raw, .unknown, e.rename.map fun n => String.ofList n.text⟩ := by
  have hname := e.importedName_tree gap
  rcases e with ⟨path, _ | n⟩
  · simp only [Import.ofPart?, Entry.tree, Option.elim_none, Dotted.tree] at hname ⊢
    rw [hname]
  · simp only [Import.ofPart?, Entry.tree, Option.elim_some] at hname ⊢
    rw [hname]

/-- The imports of entries in a row. -/
private theorem filterMap_ofPart? (raw : String) (line : Nat) (more : List Entry) :
    ∀ (first : Entry) (p : Position) (column : Nat), p.advance space = ⟨line, column⟩ →
      (Tree.located p (entryTrees first more)).filterMap (Import.ofPart? raw) =
        entryImports line raw column (first :: more) := by
  induction more with
  | nil =>
    intro first p column hp
    simp [entryTrees, Tree.located, (first.isText space).ofTree_eq, hp, ofPart?_tree, entryImports]
  | cons e es ih =>
    intro first p column hp
    have hpast : p.past (first.tree space) = ⟨line, column + first.text.length⟩ := by
      rw [(first.isText space).past_eq p first.all_isInline, hp]
    have hcomma : (⟨line, column + first.text.length⟩ : Position).past (leaf [] ",") =
        ⟨line, column + first.text.length + 1⟩ := rfl
    have hnext : (⟨line, column + first.text.length + 1⟩ : Position).advance space =
        ⟨line, column + first.text.length + 2⟩ := rfl
    have hlocated : Tree.located p (entryTrees first (e :: es)) =
        (⟨line, column⟩, first.tree space) :: (⟨line, column + first.text.length⟩, leaf [] ",") ::
          Tree.located ⟨line, column + first.text.length + 1⟩ (entryTrees e es) := by
      simp only [entryTrees, List.flatMap_cons, Entry.moreTrees, List.cons_append, List.nil_append,
        Tree.located, hpast, hcomma, (first.isText space).ofTree_eq, hp]
      rfl
    rw [hlocated, List.filterMap_cons, ofPart?_tree, List.filterMap_cons]
    exact congrArg _ (ih e _ _ hnext)

private theorem phrases_entryTrees (first : Entry) (more : List Entry) :
    phrases (entryTrees first more) = (first :: more).map (Entry.tree space) := by
  have hone (e : Entry) (ts : List Tree) :
      phrases (e.tree space :: ts) = e.tree space :: phrases ts := by
    rcases e with ⟨path, _ | n⟩ <;> rfl
  rw [entryTrees, hone, List.map_cons]
  congr 1
  induction more with
  | nil => rfl
  | cons e es ih =>
    have hcomma (ts : List Tree) : phrases (leaf [] "," :: ts) = phrases ts := rfl
    rw [List.flatMap_cons, Entry.moreTrees, List.cons_append, List.cons_append, hcomma, hone,
      List.nil_append, ih, List.map_cons]

private theorem importedNames_items (items : List Item) :
    Tree.importedNames ((items.map Item.entry).map (Entry.tree space)) = itemNames items := by
  have hstar (e : Entry) : (e.tree space).isOf .star = false := by
    rcases e with ⟨path, _ | n⟩ <;> rfl
  have hname (i : Item) : (i.entry.tree space).importedName.1 = String.ofList i.name.text := by
    rw [Entry.importedName_tree, Item.entry, Dotted.text, List.flatMap_nil, List.append_nil]
  simp [Tree.importedNames, hstar, hname, itemNames]

/-- The tree of the module that names are imported from has its path. -/
theorem Target.modulePath_tree : ∀ t : Target, t.tree.modulePath = String.ofList t.text
  | absolute path => (path.isText space).textOf_eq
  | relative dots path => by
    have hdots : ∀ n, Tree.charsOfAll ((List.replicate n ([] : List Char)).flatMap
        fun gap => [leaf gap "."]) = List.replicate n '.' := by
      intro n
      induction n with
      | zero => rfl
      | succ n ih =>
        rw [List.replicate_succ, List.flatMap_cons, Tree.charsOfAll_append, ih]
        rfl
    have hseries : IsText (.node .dots ((dotGaps dots).flatMap fun gap => [leaf gap "."])) space
        ('.' :: List.replicate dots '.') := by
      refine ⟨rfl, ?_⟩
      rw [Tree.chars, dotGaps, List.flatMap_cons, Tree.charsOfAll_append, hdots]
      rfl
    rw [tree, Tree.modulePath, text, List.map_cons, hseries.textOf_eq]
    cases path with
    | none => simp
    | some d => simp [(d.isText []).textOf_eq, String.ofList_append, String.append_assoc]

private theorem ofNames_eq {statement target : Tree} {names : List Tree}
    (h : phrases statement.children = target :: names) (p : Position) :
    Import.ofNames p statement =
      [⟨target.modulePath, Tree.importedNames names, .names, (p.ofTree statement).line,
        (p.ofTree statement).column, textOf statement, .unknown, none⟩] := by
  rw [Import.ofNames, h]

/-- The tree of an import statement has its imports. -/
theorem Line.ofTree_tree {p : Position} {gap : List Char} {line column : Nat}
    (hp : p.advance gap = ⟨line, column⟩) (l : Line) :
    Import.ofTree p (l.tree gap) = l.imports line column := by
  have hraw := (l.isText gap).textOf_eq
  have hplace := ((l.isText gap).ofTree_eq p).trans hp
  cases l with
  | modules first more =>
    have hpast : (p.past (leaf gap "import")).advance space = ⟨line, column + 7⟩ := by
      rw [leaf, Position.past, hp]
      rfl
    have hparts : (Tree.located p (tree gap (modules first more)).children) =
        (p.ofTree (leaf gap "import"), leaf gap "import") ::
          Tree.located (p.past (leaf gap "import")) (entryTrees first more) := rfl
    have hmodules : Import.ofTree p (tree gap (modules first more)) =
        Import.ofModules p (tree gap (modules first more)) := rfl
    rw [hmodules, Import.ofModules_eq, hraw, hparts]
    exact filterMap_ofPart? _ line more first _ _ hpast
  | names target first more =>
    have hnames : Import.ofTree p (tree gap (names target first more)) =
        Import.ofNames p (tree gap (names target first more)) := rfl
    have hparts : phrases (tree gap (names target first more)).children =
        target.tree :: ((first :: more).map Item.entry).map (Entry.tree space) := by
      rw [List.map_cons, ← phrases_entryTrees]
      cases target <;> rfl
    rw [hnames, ofNames_eq hparts, importedNames_items, target.modulePath_tree, hraw, hplace]
    rfl
  | star target =>
    have hnames : Import.ofTree p (tree gap (star target)) =
        Import.ofNames p (tree gap (star target)) := rfl
    have hparts : phrases (tree gap (star target)).children =
        [target.tree, .node .star [leaf space "*"]] := by
      cases target <;> rfl
    rw [hnames, ofNames_eq hparts, target.modulePath_tree, hraw, hplace]
    rfl
  | future first more =>
    have hfuture : Import.ofTree p (tree gap (future first more)) =
        [Import.ofFuture p (tree gap (future first more))] := rfl
    have hparts : phrases (tree gap (future first more)).children =
        ((first :: more).map Item.entry).map (Entry.tree space) := by
      rw [List.map_cons, ← phrases_entryTrees]
      rfl
    rw [hfuture, Import.ofFuture, hparts, importedNames_items, hraw, hplace]
    rfl

/-! ## Imports of statements -/

/-- The point where a line begins that is not the first. -/
theorem advance_lineGap (p : Position) (depth : Nat) :
    p.advance (lineGap depth) = ⟨p.line + 1, 4 * depth⟩ := by
  have hspaces : (indentation depth).all isInline = true := by
    have hspace : isInline ' ' = true := by decide
    simp [indentation, hspace]
  have hnext : p.advance (lineGap depth) = (p.next '\n').advance (indentation depth) := rfl
  rw [hnext, advance_of_isInline _ hspaces, Position.next, if_pos rfl]
  simp [indentation]

/-- No import stands in front of a block. -/
private theorem ofTree_block (p : Position) (gap : List Char) (name : Name) (opening : Opening)
    (ts : List Tree) : Import.ofTree p (.node opening.phrase (opening.trees gap name ++ ts)) =
      Import.ofTrees (p.pastAll (opening.trees gap name)) ts := by
  have hnode : Import.ofTree p (.node opening.phrase (opening.trees gap name ++ ts)) =
      Import.ofTrees p (opening.trees gap name ++ ts) := by
    cases opening <;> rfl
  have hnone : Import.ofTrees p (opening.trees gap name) = [] := by
    cases opening <;> rfl
  rw [hnode, Import.ofTrees_append, hnone, List.nil_append]

private theorem pastAll_opening {p : Position} {gap : List Char} {line column : Nat}
    (hp : p.advance gap = ⟨line, column⟩) (name : Name) (opening : Opening) :
    (p.pastAll (opening.trees gap name)).line = line := by
  have hchars : Tree.charsOfAll (opening.trees gap name) = gap ++ opening.text name := by
    rw [← opening.charsOf_strokes]
    cases opening <;>
      simp [Opening.trees, Opening.strokes, Tree.charsOfAll, Tree.chars, leaf, Name.tree, charsOf,
        word, sign, Name.stroke]
  rw [Position.pastAll_eq_advance, hchars, Position.advance_append, hp,
    advance_of_isInline _ (opening.all_isInline name)]

mutual

/-- The tree of a statement has its imports, and goes over its lines. -/
theorem Statement.ofTree_tree {p : Position} {gap : List Char} {line : Nat} (depth : Nat)
    (hp : p.advance gap = ⟨line, 4 * depth⟩) :
    ∀ s : Statement, Import.ofTree p (s.tree gap depth) = s.imports line depth ∧
      (p.past (s.tree gap depth)).line + 1 = line + (s.lines depth).length
  | .line l => by
    refine ⟨l.ofTree_tree hp, ?_⟩
    rw [Statement.tree, (l.isText gap).past_eq p l.all_isInline, hp]
    rfl
  | .block opening name body => by
    have hline := pastAll_opening hp name opening
    have hstart := advance_lineGap (p.pastAll (opening.trees gap name)) (depth + 1)
    rw [hline] at hstart
    obtain ⟨himports, hpast⟩ := Body.ofTrees_trees (depth + 1) hstart body
    constructor
    · rw [Statement.tree, ofTree_block, Statement.imports, ← himports]
      exact List.append_nil _
    · have hall : p.past (Statement.tree gap depth (.block opening name body)) =
          (p.pastAll (opening.trees gap name)).pastAll
            (body.trees (lineGap (depth + 1)) (depth + 1)) :=
        Position.pastAll_append p (opening.trees gap name) _
      rw [hall, hpast, Statement.lines, List.length_cons]
      omega

/-- The trees of statements have their imports, and go over their lines. -/
theorem Body.ofTrees_trees {p : Position} {gap : List Char} {line : Nat} (depth : Nat)
    (hp : p.advance gap = ⟨line, 4 * depth⟩) :
    ∀ b : Body, Import.ofTrees p (b.trees gap depth) = b.imports line depth ∧
      (p.pastAll (b.trees gap depth)).line + 1 = line + (b.lines depth).length
  | .one s => by
    obtain ⟨himports, hpast⟩ := Statement.ofTree_tree depth hp s
    refine ⟨?_, hpast⟩
    rw [Body.trees, Body.imports, ← himports]
    exact List.append_nil _
  | .more s rest => by
    obtain ⟨himports, hpast⟩ := Statement.ofTree_tree depth hp s
    have hstart := advance_lineGap (p.past (s.tree gap depth)) depth
    rw [hpast] at hstart
    obtain ⟨himports', hpast'⟩ := Body.ofTrees_trees depth hstart rest
    constructor
    · rw [Body.trees, Body.imports, Import.ofTrees, himports, himports']
    · rw [Body.trees, Body.lines, Position.pastAll, hpast', List.length_append, Nat.add_assoc]

end

/-! ## Statements of older forms -/

/-- The first old statement in a row of trees stands in the first trees or in those behind them. -/
theorem firstOf?_append (p : Position) (ts ts' : List Tree) :
    OldStatement.firstOf? p (ts ++ ts') =
      (OldStatement.firstOf? p ts).or (OldStatement.firstOf? (p.pastAll ts) ts') := by
  induction ts generalizing p with
  | nil => rfl
  | cons t ts ih =>
    rw [List.cons_append, OldStatement.firstOf?, OldStatement.firstOf?, ih, Position.pastAll,
      Option.or_assoc]

private theorem firstOf?_wrap {p : Position} {ts : List Tree}
    (h : OldStatement.firstOf? p ts = none) (q : Piece) :
    OldStatement.firstOf? p (sketch.wrap q ts) = none := by
  -- a transparent piece gives its parts, any other one a phrase that is no old statement
  have hnode : (OldStatement.firstOf? p ts).or none = none := by rw [h, Option.or_none]
  cases q <;> first | exact h | exact hnode

/-- What the sketch of import scripts spells has no statement of an older form. -/
theorem firstOf?_of_spells {form : List (Element Piece)} {ws : List Stroke} {ts : List Tree}
    (h : sketch.Spells form ws ts) (p : Position) : OldStatement.firstOf? p ts = none := by
  induction h generalizing p with
  | nil => rfl
  | @token w form ws ts _ _ ih =>
    have htrees : OldStatement.firstOf? p w.trees = none := by
      rw [Stroke.trees]
      split <;> rfl
    rw [firstOf?_append, htrees, ih, Option.none_or]
  | @piece q inner form ws ws' ts ts' _ _ _ ih ih' =>
    rw [firstOf?_append, firstOf?_wrap (ih p) q, ih', Option.none_or]

end ScriptDeps.ImportScript
