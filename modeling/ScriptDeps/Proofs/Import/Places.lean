import ScriptDeps.Analysis
import ScriptDeps.Proofs.Import.Steps
import ScriptDeps.Proofs.Source.Comments

/-!
# Imports further down

What stands in front of a script decides where its imports stand, but not which they are. Where a
tree begins some lines further down, and where trees differ only in the first gap and the second one
ends it some lines further down, all imports stand as many lines further down, and nothing else
about them is different. Main statement: `ofSource_of_sameTrees`.
-/

namespace ScriptDeps

open Source

variable {c : Change} {t t' : Tree} {p q : Position} {n : Nat}

/-- The same import some lines further down. -/
def Import.down (n : Nat) (i : Import) : Import := { i with line := i.line + n }

/-- What is read from a script whose statements stand some lines further down. -/
def Import.downAll (n : Nat) :
    Except SyntaxError (List Import) → Except SyntaxError (List Import)
  | .error .malformed => .error .malformed
  | .error (.old statement p) => .error (.old statement (p.down n))
  | .ok imports => .ok (imports.map (Import.down n))

/-! ## Places -/

private theorem ofPart?_down (raw : String) (q : Position) (t : Tree) :
    Import.ofPart? raw (q.down n, t) = (Import.ofPart? raw (q, t)).map (Import.down n) := by
  cases t <;> rfl

private theorem filterMap_located_down (raw : String) (p : Position) (ts : List Tree) :
    (Tree.located (p.down n) ts).filterMap (Import.ofPart? raw) =
      ((Tree.located p ts).filterMap (Import.ofPart? raw)).map (Import.down n) := by
  induction ts generalizing p with
  | nil => rfl
  | cons t ts ih =>
    rw [Tree.located, Tree.located, List.filterMap_cons, List.filterMap_cons,
      Position.ofTree_down, ofPart?_down, Position.past_down, ih]
    cases Import.ofPart? raw (p.ofTree t, t) <;> rfl

private theorem ofModules_down (p : Position) (statement : Tree) :
    Import.ofModules (p.down n) statement =
      (Import.ofModules p statement).map (Import.down n) := by
  rw [Import.ofModules_eq, Import.ofModules_eq, filterMap_located_down]

private theorem ofNames_down (p : Position) (statement : Tree) :
    Import.ofNames (p.down n) statement = (Import.ofNames p statement).map (Import.down n) := by
  unfold Import.ofNames
  simp only [Position.ofTree_down]
  split <;> rfl

private theorem ofFuture_down (p : Position) (statement : Tree) :
    Import.ofFuture (p.down n) statement = (Import.ofFuture p statement).down n := by
  unfold Import.ofFuture
  simp only [Position.ofTree_down]
  rfl

mutual

/-- The imports in a tree that begins further down stand further down. -/
theorem ofTree_down (n : Nat) (p : Position) :
    ∀ t : Tree, Import.ofTree (p.down n) t = (Import.ofTree p t).map (Import.down n)
  | .leaf _ _ => rfl
  | .node phrase parts => by
    have hparts := ofTrees_down n p parts
    unfold Import.ofTree
    split
    · rfl
    · exact ofModules_down p _
    · exact ofNames_down p _
    · rw [ofFuture_down, List.map_singleton]
    · next heq =>
      obtain ⟨rfl, rfl⟩ := Source.Tree.node.inj heq
      exact hparts

/-- The imports in trees in a row that begin further down stand further down. -/
theorem ofTrees_down (n : Nat) (p : Position) :
    ∀ ts : List Tree, Import.ofTrees (p.down n) ts = (Import.ofTrees p ts).map (Import.down n)
  | [] => rfl
  | t :: ts => by
    rw [Import.ofTrees, Import.ofTrees, List.map_append, ofTree_down n p t, Position.past_down,
      ofTrees_down n _ ts]

end

mutual

/-- The first old statement in a tree that begins further down stands further down. -/
theorem first?_down (n : Nat) (p : Position) :
    ∀ t : Tree, OldStatement.first? (p.down n) t =
      (OldStatement.first? p t).map fun (old, q) => (old, q.down n)
  | .leaf _ _ => rfl
  | .node phrase parts => by
    have hparts := firstOf?_down n p parts
    unfold OldStatement.first?
    split
    · rfl
    · rw [Position.ofTree_down]
      rfl
    · rw [Position.ofTree_down]
      rfl
    · next heq =>
      obtain ⟨rfl, rfl⟩ := Source.Tree.node.inj heq
      exact hparts

/-- The first old statement in trees in a row that begin further down stands further down. -/
theorem firstOf?_down (n : Nat) (p : Position) :
    ∀ ts : List Tree, OldStatement.firstOf? (p.down n) ts =
      (OldStatement.firstOf? p ts).map fun (old, q) => (old, q.down n)
  | [] => rfl
  | t :: ts => by
    rw [OldStatement.firstOf?, OldStatement.firstOf?, Option.map_or, first?_down n p t,
      Position.past_down, firstOf?_down n _ ts]

end

/-! ## First gaps -/

/-- Trees that differ only in the first gap have the same characters behind it. -/
private theorem chars_alike (h : t.Alike c t') : ∃ gap rest,
    (t.gap = c.lead ++ gap ∧ t.chars = c.lead ++ gap ++ rest) ∧
      t'.gap = c.lead' ++ gap ∧ t'.chars = c.lead' ++ gap ++ rest := by
  induction h with
  | leaf gap text => exact ⟨gap, text, ⟨rfl, rfl⟩, rfl, rfl⟩
  | node p ts _ ih =>
    obtain ⟨gap, rest, ⟨hgap, hchars⟩, hgap', hchars'⟩ := ih
    refine ⟨gap, rest ++ Tree.charsOfAll ts, ⟨hgap, ?_⟩, hgap', ?_⟩
    · rw [Tree.chars, Tree.charsOfAll, hchars, List.append_assoc]
    · rw [Tree.chars, Tree.charsOfAll, hchars', List.append_assoc]

private theorem textOf_alike (h : t.Alike c t') : textOf t = textOf t' := by
  obtain ⟨gap, rest, ⟨hgap, hchars⟩, hgap', hchars'⟩ := chars_alike h
  rw [textOf, textOf, Tree.text, Tree.text, hgap, hchars, hgap', hchars', List.drop_left,
    List.drop_left]

/-- Among the phrases of a statement at most the first one differs. -/
private theorem phrases_alike (h : t.Alike c t') (ts : List Tree) :
    phrases (t :: ts) = phrases (t' :: ts) ∨
      (phrases (t :: ts) = t :: phrases ts ∧ phrases (t' :: ts) = t' :: phrases ts) := by
  cases h with
  | leaf gap text => exact Or.inl rfl
  | node p ts h => exact Or.inr ⟨rfl, rfl⟩

/-- A function that does not look at the first gap does not tell the phrases of statements apart. -/
private theorem map_phrases_alike {α : Type} {f : Tree → α}
    (hf : ∀ {t t' : Tree}, t.Alike c t' → f t = f t') (h : t.Alike c t') (ts : List Tree) :
    (phrases (t :: ts)).map f = (phrases (t' :: ts)).map f := by
  rcases phrases_alike h ts with heq | ⟨heq, heq'⟩
  · rw [heq]
  · rw [heq, heq', List.map_cons, List.map_cons, hf h]

private theorem isOf_alike (h : t.Alike c t') (phrase : Phrase) :
    t.isOf phrase = t'.isOf phrase := by
  cases h <;> rfl

private theorem map_textOf_alike (h : t.Alike c t') (ts : List Tree) :
    (t :: ts).map textOf = (t' :: ts).map textOf := by
  rw [List.map_cons, List.map_cons, textOf_alike h]

private theorem importedName_alike (h : t.Alike c t') : t.importedName = t'.importedName := by
  have htext := textOf_alike h
  cases h with
  | leaf gap text => exact congrArg (·, none) htext
  | @node p t t' ts h =>
    by_cases hp : p = .renamed
    · subst hp
      have hhead : (phrases (t :: ts)).head?.elim "" textOf =
          (phrases (t' :: ts)).head?.elim "" textOf := by
        have hmap := congrArg List.head? (map_phrases_alike textOf_alike h ts)
        rw [List.head?_map, List.head?_map] at hmap
        have helim := congrArg (Option.elim · "" id) hmap
        simpa [Option.elim_map] using helim
      have hlast := congrArg List.getLast? (map_textOf_alike h ts)
      rw [List.getLast?_map, List.getLast?_map] at hlast
      exact congrArg₂ Prod.mk hhead hlast
    · have hname : ∀ parts,
          (Source.Tree.node p parts).importedName = (textOf (.node p parts), none) := by
        intro parts
        unfold Tree.importedName
        split
        · next heq => exact absurd (Source.Tree.node.inj heq).1 hp
        · rfl
      rw [hname, hname, htext]

private theorem modulePath_alike (h : t.Alike c t') : t.modulePath = t'.modulePath := by
  have htext := textOf_alike h
  cases h with
  | leaf gap text => exact htext
  | @node p t t' ts h =>
    by_cases hp : p = .relativePath
    · subst hp
      exact congrArg String.join (map_textOf_alike h ts)
    · have hpath : ∀ parts, (Source.Tree.node p parts).modulePath = textOf (.node p parts) := by
        intro parts
        unfold Tree.modulePath
        split
        · next heq => exact absurd (Source.Tree.node.inj heq).1 hp
        · rfl
      rw [hpath, hpath, htext]

private theorem importedNames_alike (h : t.Alike c t') (ts : List Tree) :
    Tree.importedNames (phrases (t :: ts)) = Tree.importedNames (phrases (t' :: ts)) := by
  have hnames := map_phrases_alike (f := Tree.importedName) importedName_alike h ts
  have hstar := map_phrases_alike (f := Tree.isOf .star) (fun h => isOf_alike h _) h ts
  have hany := congrArg (List.any · id) hstar
  have hfirst := congrArg (List.map Prod.fst) hnames
  simp only [List.any_map, List.map_map, Function.comp_def, id] at hany hfirst
  rw [Tree.importedNames, Tree.importedNames, hany, hfirst]

/-! ## The same statements further down -/

/-- The first token behind a gap, and the end of its tree, are as far down as the gap. -/
private theorem positions_alike (h : t.Alike c t')
    (hp : q.advance c.lead' = (p.advance c.lead).down n) :
    q.ofTree t' = (p.ofTree t).down n ∧ q.past t' = (p.past t).down n := by
  obtain ⟨gap, rest, ⟨hgap, hchars⟩, hgap', hchars'⟩ := chars_alike h
  have htoken : q.ofTree t' = (p.ofTree t).down n := by
    rw [Position.ofTree, Position.ofTree, hgap, hgap', Position.advance_append, hp,
      Position.advance_down, Position.advance_append]
  refine ⟨htoken, ?_⟩
  rw [Position.past_eq_advance, Position.past_eq_advance, hchars, hchars',
    Position.advance_append q (c.lead' ++ gap), Position.advance_append p (c.lead ++ gap), ← hgap,
    ← hgap']
  exact (congrArg (·.advance rest) htoken).trans (Position.advance_down n _ rest)

private theorem ofPart?_alike (raw : String) (h : t.Alike c t') (q : Position) :
    Import.ofPart? raw (q, t') = Import.ofPart? raw (q, t) := by
  have hname := importedName_alike h
  cases h with
  | leaf gap text => rfl
  | node p ts h => simp only [Import.ofPart?, hname]

/-- Statements that differ only in the first gap import the same modules. -/
private theorem ofModules_alike {phrase : Phrase} {ts : List Tree} (h : t.Alike c t')
    (hp : q.advance c.lead' = (p.advance c.lead).down n) :
    Import.ofModules q (.node phrase (t' :: ts)) =
      (Import.ofModules p (.node phrase (t :: ts))).map (Import.down n) := by
  have htext := textOf_alike (.node phrase ts h)
  obtain ⟨htoken, hpast⟩ := positions_alike h hp
  rw [Import.ofModules_eq, Import.ofModules_eq, ← htext, Tree.children, Tree.children,
    Tree.located, Tree.located, List.filterMap_cons, List.filterMap_cons, htoken,
    ofPart?_alike _ h, ofPart?_down, hpast, filterMap_located_down]
  cases Import.ofPart? _ (p.ofTree t, t) <;> rfl

/-- Statements that differ only in the first gap import the same names. -/
private theorem ofNames_alike {phrase : Phrase} {ts : List Tree} (h : t.Alike c t')
    (hp : q.advance c.lead' = (p.advance c.lead).down n) :
    Import.ofNames q (.node phrase (t' :: ts)) =
      (Import.ofNames p (.node phrase (t :: ts))).map (Import.down n) := by
  have htext := textOf_alike (.node phrase ts h)
  obtain ⟨htoken, -⟩ := positions_alike (.node phrase ts h) hp
  unfold Import.ofNames
  simp only [Tree.children, htext, htoken]
  rcases phrases_alike h ts with heq | ⟨heq, heq'⟩
  · rw [heq]
    split <;> rfl
  · rw [heq, heq']
    simp only [modulePath_alike h]
    rfl

private theorem ofFuture_alike {phrase : Phrase} {ts : List Tree} (h : t.Alike c t')
    (hp : q.advance c.lead' = (p.advance c.lead).down n) :
    Import.ofFuture q (.node phrase (t' :: ts)) =
      (Import.ofFuture p (.node phrase (t :: ts))).down n := by
  obtain ⟨htoken, -⟩ := positions_alike (.node phrase ts h) hp
  simp only [Import.ofFuture, Tree.children, importedNames_alike h,
    textOf_alike (.node phrase ts h), htoken]
  rfl

/-- Trees that differ only in the first gap have the same imports, as far down as the gap. -/
theorem ofTree_alike (h : t.Alike c t') (hp : q.advance c.lead' = (p.advance c.lead).down n) :
    Import.ofTree q t' = (Import.ofTree p t).map (Import.down n) := by
  induction h with
  | leaf gap text => rfl
  | @node phrase t t' ts h ih =>
    have hparts : Import.ofTrees q (t' :: ts) =
        (Import.ofTrees p (t :: ts)).map (Import.down n) := by
      rw [Import.ofTrees, Import.ofTrees, List.map_append, ih, (positions_alike h hp).2,
        ofTrees_down]
    unfold Import.ofTree
    split
    · next heq => exact absurd heq nofun
    · next heq =>
      obtain ⟨rfl, rfl⟩ := Source.Tree.node.inj heq
      exact ofModules_alike h hp
    · next heq =>
      obtain ⟨rfl, rfl⟩ := Source.Tree.node.inj heq
      exact ofNames_alike h hp
    · next heq =>
      obtain ⟨rfl, rfl⟩ := Source.Tree.node.inj heq
      rw [ofFuture_alike h hp]
      rfl
    · next hmodules hnames hfuture heq =>
      obtain ⟨rfl, rfl⟩ := Source.Tree.node.inj heq
      split
      · next heq' => exact absurd heq' nofun
      · next heq' => exact absurd (Source.Tree.node.inj heq').1 hmodules
      · next heq' => exact absurd (Source.Tree.node.inj heq').1 hnames
      · next heq' => exact absurd (Source.Tree.node.inj heq').1 hfuture
      · next heq' =>
        obtain ⟨rfl, rfl⟩ := Source.Tree.node.inj heq'
        exact hparts

/-- Trees that differ only in the first gap have the same old statement first. -/
theorem first?_alike (h : t.Alike c t') (hp : q.advance c.lead' = (p.advance c.lead).down n) :
    OldStatement.first? q t' =
      (OldStatement.first? p t).map fun (old, place) => (old, place.down n) := by
  induction h with
  | leaf gap text => rfl
  | @node phrase t t' ts h ih =>
    have hparts : OldStatement.firstOf? q (t' :: ts) =
        (OldStatement.firstOf? p (t :: ts)).map fun (old, place) => (old, place.down n) := by
      rw [OldStatement.firstOf?, OldStatement.firstOf?, Option.map_or, ih,
        (positions_alike h hp).2, firstOf?_down]
    have htoken (phrase : Phrase) : q.ofTree (.node phrase (t' :: ts)) =
        (p.ofTree (.node phrase (t :: ts))).down n :=
      (positions_alike (.node phrase ts h) hp).1
    unfold OldStatement.first?
    split
    · next heq => exact absurd heq nofun
    · next heq =>
      obtain ⟨rfl, rfl⟩ := Source.Tree.node.inj heq
      rw [htoken]
      rfl
    · next heq =>
      obtain ⟨rfl, rfl⟩ := Source.Tree.node.inj heq
      rw [htoken]
      rfl
    · next hprint hexec heq =>
      obtain ⟨rfl, rfl⟩ := Source.Tree.node.inj heq
      split
      · next heq' => exact absurd heq' nofun
      · next heq' => exact absurd (Source.Tree.node.inj heq').1 hprint
      · next heq' => exact absurd (Source.Tree.node.inj heq').1 hexec
      · next heq' =>
        obtain ⟨rfl, rfl⟩ := Source.Tree.node.inj heq'
        exact hparts

/-- A tree further down has the same imports and the same old statement further down. -/
theorem ofTree_movedDown (h : t.MovedDown n t') :
    Import.ofTree .start t' = (Import.ofTree .start t).map (Import.down n) ∧
      OldStatement.first? .start t' =
        (OldStatement.first? .start t).map fun (old, place) => (old, place.down n) := by
  obtain ⟨c, halike, hdown | ⟨gap, rfl⟩⟩ := h
  · exact ⟨ofTree_alike halike hdown, first?_alike halike hdown⟩
  · -- a gap alone has no statements
    cases halike with
    | node _ _ hleaf =>
      cases hleaf
      exact ⟨rfl, rfl⟩

/-! ## Scripts -/

variable {s s' : List Char}

/-- Neither of two scripts can be read, or the same is read from the second one further down. -/
theorem ofSource_of_sameTrees (h : SameTrees n (parse? s) (parse? s')) :
    Import.ofSource s' = Import.downAll n (Import.ofSource s) := by
  unfold Import.ofSource
  cases hs : parse? s <;> cases hs' : parse? s' <;> rw [hs, hs'] at h <;> cases h
  · rfl
  · next t t' h =>
    obtain ⟨himports, hold⟩ := ofTree_movedDown h
    simp only [hold, himports]
    cases OldStatement.first? .start t <;> rfl

/-- Where imports stand does not matter to the packages that have to be installed. -/
theorem dependencies_down (u : Universe) (n : Nat) (imports : List Import) :
    (Analysis.ofImports u (imports.map (Import.down n))).dependencies =
      (Analysis.ofImports u imports).dependencies := by
  have hnames : Analysis.namesOf .external ((imports.map (Import.down n)).map u.classify) =
      Analysis.namesOf .external (imports.map u.classify) := by
    simp only [Analysis.namesOf, List.map_map, List.filter_map, List.filterMap_map]
    rfl
  rw [Analysis.ofImports, Analysis.ofImports, hnames]

/-- A script from which the same is read further down needs the same packages. -/
theorem dependencies_eq_of_downAll (u : Universe)
    (h : Import.ofSource s' = Import.downAll n (Import.ofSource s)) :
    (Analysis.ofSource u s').1.dependencies = (Analysis.ofSource u s).1.dependencies := by
  unfold Analysis.ofSource Analysis.ofText
  rw [h]
  cases Import.ofSource s with
  | error e => cases e <;> rfl
  | ok imports => exact dependencies_down u n imports

/-- An empty script has no imports. -/
theorem ofSource_nil : Import.ofSource [] = .ok [] := by
  rw [Import.ofSource, parse?_nil]
  rfl

end ScriptDeps
