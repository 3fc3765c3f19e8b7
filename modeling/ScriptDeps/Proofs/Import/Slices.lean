import ScriptDeps.Proofs.Import.Occurrences
import ScriptDeps.Proofs.Source.Characters
import ScriptDeps.Proofs.Source.Positions

/-!
# Imports and what stands at their points

A record says where its import stands and what the text of its statement is. Both are true of the
script: the text is a slice of it, and at the point of the record stands the statement, or the path
of the module where modules are imported. Main statement: `Import.standsIn_of_mem_ofSource`.
-/

namespace ScriptDeps

open Source

/-- An import stands in a script where its record says. A statement that imports names begins at the
point of its record; where modules are imported the path stands there, inside the statement and
behind the word it begins with. -/
inductive Import.StandsIn (source : List Char) (i : Import) : Prop
  | statement (before after : List Char) (hform : i.form ≠ .module)
    (hsource : source = before ++ i.raw.toList ++ after) (hraw : "from".toList <+: i.raw.toList)
    (hposition : i.position.IsBehind before)
  | path (before between ending after : List Char) (hform : i.form = .module)
    (hsource : source = before ++ i.raw.toList ++ after)
    (hraw : i.raw.toList = "import".toList ++ between ++ i.path.toList ++ ending)
    (hpath : i.path.toList ≠ [])
    (hposition : i.position.IsBehind (before ++ "import".toList ++ between))

variable {p q : Position} {t u : Tree} {ts parts : List Tree} {xs : List Symbol}

/-- The text of a tree as a string has the same characters. -/
theorem toList_textOf (t : Tree) : (textOf t).toList = t.text := String.toList_ofList

/-! ## The statements of imports -/

namespace Import

mutual

/-- Every import of a tree is one of an import statement within it. -/
theorem exists_of_mem_ofTree {i : Import} (p : Position) : ∀ t : Tree, i ∈ ofTree p t →
    ∃ x ∈ t.within p, x.2.isImporting = true ∧ i ∈ ofStatement x
  | .leaf _ _, h => by cases h
  | .node phrase parts, h => by
    cases hphrase : (Source.Tree.node phrase parts).isImporting with
    | true =>
      rw [ofTree_of_isImporting p hphrase] at h
      exact ⟨_, List.mem_cons_self, hphrase, h⟩
    | false =>
      rw [ofTree_node p hphrase] at h
      obtain ⟨x, hx, himporting, hi⟩ := exists_of_mem_ofTrees p parts h
      exact ⟨x, List.mem_cons_of_mem _ hx, himporting, hi⟩

/-- Every import of trees in a row is one of an import statement within them. -/
theorem exists_of_mem_ofTrees {i : Import} (p : Position) : ∀ ts : List Tree, i ∈ ofTrees p ts →
    ∃ x ∈ Tree.withinAll p ts, x.2.isImporting = true ∧ i ∈ ofStatement x
  | [], h => by cases h
  | t :: ts, h => by
    rw [Tree.withinAll]
    rcases List.mem_append.1 h with h | h
    · obtain ⟨x, hx, himporting, hi⟩ := exists_of_mem_ofTree p t h
      exact ⟨x, List.mem_append_left _ hx, himporting, hi⟩
    · obtain ⟨x, hx, himporting, hi⟩ := exists_of_mem_ofTrees (p.past t) ts h
      exact ⟨x, List.mem_append_right _ hx, himporting, hi⟩

end

end Import

/-- Where a script is read its imports are those of its tree. -/
theorem Import.exists_tree_of_ofSource {source : List Char} {imports : List Import}
    (h : ofSource source = .ok imports) :
    ∃ tree, parse? source = some tree ∧ OldStatement.first? .start tree = none ∧
      imports = ofTree .start tree := by
  unfold ofSource at h
  split at h
  · cases h
  · next tree hparse =>
    split at h
    · cases h
    · next hold =>
      cases h
      exact ⟨tree, hparse, hold, rfl⟩

namespace Source

/-- A tree in a tree of a tree is in that one. -/
theorem Tree.IsIn.trans {v : Tree} (h : t.IsIn u) (h' : u.IsIn v) : t.IsIn v := by
  induction h' with
  | whole => exact h
  | part hu _ ih => exact .part hu ih

/-- A tree in a row stands at the point to which those before it lead. -/
theorem Tree.exists_of_mem_located (h : (q, t) ∈ located p ts) :
    ∃ us vs, ts = us ++ t :: vs ∧ q = (p.pastAll us).ofTree t := by
  induction ts generalizing p with
  | nil => cases h
  | cons u ts ih =>
    rcases List.mem_cons.1 h with heq | h
    · cases heq
      exact ⟨[], ts, rfl, rfl⟩
    · obtain ⟨us, vs, rfl, rfl⟩ := ih h
      exact ⟨u :: us, vs, rfl, rfl⟩

/-- A word has a leaf with its text. -/
theorem exists_leaf_of_word {w : String} (h : Grows grammar (.token (.word w) :: xs) ts) :
    ∃ gap us, ts = .leaf gap w.toList :: us ∧ Grows grammar xs us := by
  rcases h.of_token with ⟨hempty, -⟩ | ⟨gap, text, us, rfl, -, htext, hus⟩
  · exact absurd rfl hempty.2.ne_nil
  · exact ⟨gap, us, by rw [htext.1], hus⟩

/-- A phrase has the gap of its first token, and its text begins with that of the token. -/
theorem Tree.text_node_leaf (phrase : Phrase) (gap text : List Char) (us : List Tree) :
    (node phrase (leaf gap text :: us)).text = text ++ charsOfAll us := by
  simp [Tree.text, Tree.gap, gapOfAll, chars, charsOfAll]

/-- What names a path has its gap, and begins with its text. -/
theorem Tree.Names.exists_text {path : Tree} {rename : Option Tree} (h : t.Names path rename) :
    t.gap = path.gap ∧ ∃ ending, t.text = path.text ++ ending := by
  cases h with
  | plain parts => exact ⟨rfl, [], (List.append_nil _).symm⟩
  | renamed parts gap gap' text =>
    refine ⟨rfl, charsOfAll [leaf gap "as".toList, leaf gap' text], ?_⟩
    have hgap := gap_append_text (node .dottedName parts)
    have hchars : (node .renamed [node .dottedName parts, leaf gap "as".toList,
        leaf gap' text]).chars = (node .dottedName parts).chars ++
          charsOfAll [leaf gap "as".toList, leaf gap' text] := rfl
    rw [Tree.text, hchars, ← hgap, List.append_assoc]
    exact List.drop_left

/-- The path that a tree names stands in it. -/
theorem Tree.Names.isIn {path : Tree} {rename : Option Tree} (h : t.Names path rename) :
    path.IsIn t := by
  cases h with
  | plain parts => exact .whole _
  | renamed parts gap gap' text => exact .part List.mem_cons_self (.whole _)

/-- A phrase in a script stands for its parts. -/
theorem Tree.IsScript.exists_makes {tree : Tree} (htree : tree.IsScript grammar) {phrase : Phrase}
    (hin : (Tree.node phrase parts).IsIn tree) (hphrase : phrase ≠ .script) :
    ∃ ys, Makes grammar (.phrase phrase) ys ∧ Grows grammar ys parts := by
  obtain ⟨q, hq⟩ := (Tree.exists_mem_within_iff _ .start tree).2 hin
  obtain ⟨ys, hbuilds, hgrows⟩ := htree.of_mem_within hphrase hq
  cases hbuilds with
  | made hmakes => exact ⟨ys, hmakes, hgrows⟩
  | empty => exact absurd rfl hphrase

/-- A path that is named in a script has a text. -/
theorem Tree.Names.text_ne_nil {path tree : Tree} {rename : Option Tree}
    (htree : tree.IsScript grammar) (hin : t.IsIn tree) (h : t.Names path rename) :
    path.text ≠ [] := by
  obtain ⟨parts, rfl⟩ : ∃ parts, path = .node .dottedName parts := by
    cases h <;> exact ⟨_, rfl⟩
  obtain ⟨ys, hmakes, hgrows⟩ := htree.exists_makes (h.isIn.trans hin) nofun
  exact text_dottedName_ne_nil hmakes hgrows

end Source

/-! ## Records -/

namespace Import

/-- The word that an import statement begins with. -/
def openingWord : Phrase → String
  | .importStatement => "import"
  | _ => "from"

private theorem partsOf_openingWord : importing.all (fun phrase => !(partsOf phrase).isEmpty &&
    (partsOf phrase).all fun parts =>
      parts.head? == some (.token (.word (openingWord phrase)))) = true := by
  decide

/-- The first token of an import statement is its word. -/
private theorem exists_leaf_of_importing {phrase : Phrase} (hphrase : phrase ∈ importing)
    (hbuilds : Builds grammar (.phrase phrase) xs) (h : Grows grammar xs parts) :
    ∃ gap us, parts = .leaf gap (openingWord phrase).toList :: us := by
  have hall := List.all_eq_true.1 partsOf_openingWord phrase hphrase
  rw [Bool.and_eq_true, Bool.not_eq_true', List.isEmpty_eq_false_iff, List.all_eq_true] at hall
  have hhead : xs.head? = some (.token (.word (openingWord phrase))) := by
    cases hbuilds with
    | empty => simp [importing] at hphrase
    | made hmakes => exact eq_of_beq (hall.2 xs (mem_partsOf hmakes hall.1))
  obtain ⟨ys, rfl⟩ := List.head?_eq_some_iff.1 hhead
  obtain ⟨gap, us, rfl, -⟩ := exists_leaf_of_word h
  exact ⟨gap, us, rfl⟩

/-- The record of a name in a statement that imports modules is true of a text that has the
statement. -/
private theorem standsIn_path {source before after gap : List Char} {vs ws : List Tree}
    {path : Tree} {rename : Option Tree}
    (hsource : source = before ++ (Source.Tree.node .importStatement
      (.leaf gap "import".toList :: (vs ++ t :: ws))).text ++ after)
    (hposition : p.ofTree (.node .importStatement
      (.leaf gap "import".toList :: (vs ++ t :: ws))) = Position.start.advance before)
    (hnames : t.Names path rename) (hpath : path.text ≠ []) :
    let q := (p.pastAll (.leaf gap "import".toList :: vs)).ofTree t
    StandsIn source ⟨textOf path, [], .module, q.line, q.column, textOf (.node .importStatement
      (.leaf gap "import".toList :: (vs ++ t :: ws))), .unknown, rename.map textOf⟩ := by
  intro q
  obtain ⟨-, ending, hending⟩ := hnames.exists_text
  have htext : (Source.Tree.node .importStatement
      (.leaf gap "import".toList :: (vs ++ t :: ws))).text = "import".toList ++
        (Tree.charsOfAll vs ++ t.gap) ++ path.text ++ (ending ++ Tree.charsOfAll ws) := by
    rw [Tree.text_node_leaf, Tree.charsOfAll_append, Tree.charsOfAll, ← Tree.gap_append_text t,
      hending]
    simp
  have hpoint : q = Position.start.advance
      (before ++ "import".toList ++ (Tree.charsOfAll vs ++ t.gap)) := by
    have hgap : p.advance gap = Position.start.advance before := hposition
    have hlead : (p.pastAll (.leaf gap "import".toList :: vs)).ofTree t =
        (((p.advance gap).advance "import".toList).pastAll vs).advance t.gap := rfl
    rw [Position.advance_append, Position.advance_append, Position.advance_append, ← hgap,
      ← Position.pastAll_eq_advance]
    exact hlead
  refine .path before (Tree.charsOfAll vs ++ t.gap) (ending ++ Tree.charsOfAll ws) after rfl
    ?_ ?_ ?_ ?_
  · rw [toList_textOf, hsource]
  · rw [toList_textOf, toList_textOf, htext]
  · rwa [toList_textOf]
  · have hbehind := Position.isBehind_advance
      (before ++ "import".toList ++ (Tree.charsOfAll vs ++ t.gap))
    rwa [← hpoint] at hbehind

/-- The record of a statement that imports names is true of a text that has the statement. -/
private theorem standsIn_statement {source before after gap : List Char} {phrase : Phrase}
    {us : List Tree} {i : Import}
    (hsource : source =
      before ++ (Source.Tree.node phrase (.leaf gap "from".toList :: us)).text ++ after)
    (hform : i.form ≠ .module)
    (hraw : i.raw = textOf (.node phrase (.leaf gap "from".toList :: us)))
    (hposition : i.position.IsBehind before) : i.StandsIn source := by
  refine .statement before after hform ?_ ?_ hposition
  · rw [hraw, toList_textOf, hsource]
  · rw [hraw, toList_textOf, Tree.text_node_leaf]
    exact List.prefix_append _ _

/-- The record of an import statement of a script is true of its characters. -/
private theorem standsIn_of_mem_ofStatement {tree : Tree} (htree : tree.IsScript grammar)
    {x : Position × Tree} (hx : x ∈ tree.within .start) (himporting : x.2.isImporting = true)
    {i : Import} (hi : i ∈ ofStatement x) : i.StandsIn tree.chars := by
  obtain ⟨phrase, hphrase, ys, parts, heq, hbuilds, hgrows⟩ :=
    builds_of_isImporting htree hx himporting
  obtain ⟨p, t⟩ := x
  obtain rfl : t = .node phrase parts := heq
  obtain ⟨before, after, hchars, hposition⟩ := Tree.exists_text_of_mem_within hx
  obtain ⟨gap, us, rfl⟩ := exists_leaf_of_importing hphrase hbuilds hgrows
  have hbehind := Position.isBehind_advance before
  rw [← hposition] at hbehind
  have hrecorded := (recordedAs_ofStatement hphrase hbuilds hgrows p).1
  generalize ofStatement (p, .node phrase (.leaf gap (openingWord phrase).toList :: us)) = imports
    at hrecorded hi
  cases hrecorded with
  | modules h =>
    obtain ⟨⟨q, t⟩, ht, path, rename, hnames, rfl⟩ := exists_of_mem_forall₂ h hi
    obtain ⟨ht, hphrase⟩ := List.mem_filter.1 ht
    obtain ⟨vs, ws, hsplit, rfl⟩ := Tree.exists_of_mem_located ht
    obtain ⟨vs, rfl⟩ : ∃ vs', vs = .leaf gap "import".toList :: vs' := by
      cases vs with
      | nil =>
        cases hsplit
        cases hphrase
      | cons v vs => exact ⟨vs, by rw [← (List.cons.inj hsplit).1]; rfl⟩
    obtain rfl := (List.cons.inj hsplit).2
    have hin : t.IsIn tree := by
      refine Tree.IsIn.trans ?_ ((Tree.exists_mem_within_iff _ .start tree).1 ⟨p, hx⟩)
      exact .part (List.mem_cons_of_mem _ (List.mem_append_right _ List.mem_cons_self)) (.whole t)
    exact standsIn_path hchars hposition hnames (hnames.text_ne_nil htree hin)
  | names =>
    obtain rfl := List.mem_singleton.1 hi
    exact standsIn_statement hchars nofun rfl hbehind
  | future =>
    obtain rfl := List.mem_singleton.1 hi
    exact standsIn_statement hchars nofun rfl hbehind

/-- The records of a script ascend in its text. -/
theorem ascending_ofTree {tree : Tree} (htree : tree.IsScript grammar) :
    (ofTree .start tree).Pairwise fun i j => i.position < j.position :=
  (between_ofTree .start tree fun _ hx himporting =>
    (recordedAs_of_isImporting htree hx himporting).2.1).ascending

/-- The records of a script ascend, by lines and on one line by bytes, and each is true of the
script: what it says of the text of its statement stands there, at the point that it names. -/
theorem standsIn_of_mem_ofSource {source : List Char} {imports : List Import}
    (h : ofSource source = .ok imports) :
    imports.Pairwise (fun i j => i.line < j.line ∨ i.line = j.line ∧ i.column < j.column) ∧
      ∀ i ∈ imports, i.StandsIn source := by
  obtain ⟨tree, hparse, -, rfl⟩ := exists_tree_of_ofSource h
  have htree := isScript_of_parse? hparse
  refine ⟨(ascending_ofTree htree).imp Position.lt_iff.1, fun i hi => ?_⟩
  obtain ⟨x, hx, himporting, hi⟩ := exists_of_mem_ofTree .start tree hi
  rw [← chars_of_parse? hparse]
  exact standsIn_of_mem_ofStatement htree hx himporting hi

/-- Two modules on one line of a function, one of them under another name, and a star below. -/
theorem standsIn_of_mem_ofSource_nested :
    let os : ImportScript.Name := ⟨['o', 's'], rfl, rfl, by decide⟩
    let np : ImportScript.Name := ⟨['n', 'p'], rfl, rfl, by decide⟩
    let modules : ImportScript.Line := .modules ⟨⟨os, []⟩, none⟩ [⟨⟨np, [os]⟩, some np⟩]
    let star : ImportScript.Line := .star (.relative 1 (some ⟨os, []⟩))
    let body : ImportScript.Body := .one (.block .function np (.more (.line modules)
      (.one (.line star))))
    let source := ImportScript.print ⟨some body⟩
    let imports : List Import :=
      [⟨"os", [], .module, 2, 11, "import os, np.os as np", .unknown, none⟩,
        ⟨"np.os", [], .module, 2, 15, "import os, np.os as np", .unknown, some "np"⟩,
        ⟨"..os", ["*"], .names, 3, 4, "from ..os import *", .unknown, none⟩]
    String.ofList source =
        "def np():\n" ++ "    import os, np.os as np\n" ++ "    from ..os import *\n" ∧
      ofSource source = .ok imports ∧
      imports.Pairwise (fun i j => i.line < j.line ∨ i.line = j.line ∧ i.column < j.column) ∧
      ∀ i ∈ imports, i.StandsIn source := by
  intro os np modules star body source imports
  have hsource : ofSource source = .ok imports := ImportScript.ofSource_body body (by decide)
  exact ⟨by decide +kernel, hsource, standsIn_of_mem_ofSource hsource⟩

end Import

end ScriptDeps
