import Mathlib.Data.Prod.Lex
import ScriptDeps.Proofs.Source.Growth
import ScriptDeps.Source.Position

/-!
# Trees within trees

All trees within a tree, in the order of the text, and what the grammar says about those that grow:
each node stands for a form of its phrase, at any depth, and is of any set of symbols that the
grammar does not lead out of. Main statements: `Grows.of_mem_withinAll`, and `Grows.of_mem` for the
nodes that stand in a row.
-/

namespace ScriptDeps.Source

/-! ## Points of a script -/

namespace Position

/-- Points are ordered by their lines, on one line by the bytes before them. -/
instance : PartialOrder Position :=
  PartialOrder.lift (fun p => toLex (p.line, p.column)) fun p q h => by
    obtain ⟨hline, hcolumn⟩ := Prod.mk.inj (toLex.injective h)
    cases p
    cases q
    simp_all

/-- A position stands before another one on an earlier line, or on the same line further left. -/
theorem lt_iff {p q : Position} :
    p < q ↔ p.line < q.line ∨ p.line = q.line ∧ p.column < q.column :=
  Prod.Lex.lt_iff

/-- Every character moves the position on. -/
theorem lt_next (p : Position) (c : Char) : p < p.next c := by
  have hsize := c.utf8Size_pos
  rw [lt_iff, next]
  split
  · exact .inl (Nat.lt_succ_self p.line)
  · exact .inr ⟨rfl, Nat.lt_add_of_pos_right hsize⟩

/-- A text does not move the position back. -/
theorem le_advance (p : Position) (s : List Char) : p ≤ p.advance s := by
  induction s generalizing p with
  | nil => exact le_refl p
  | cons c s ih => exact (p.lt_next c).le.trans (ih (p.next c))

/-- A text that is not empty moves the position on. -/
theorem lt_advance (p : Position) {s : List Char} (h : s ≠ []) : p < p.advance s := by
  cases s with
  | nil => exact absurd rfl h
  | cons c s => exact (p.lt_next c).trans_le ((p.next c).le_advance s)

/-- A tree does not move the position back. -/
theorem le_past (p : Position) (t : Tree) : p ≤ p.past t := by
  rw [past_eq_advance]
  exact p.le_advance t.chars

/-- Trees in a row do not move the position back. -/
theorem le_pastAll (p : Position) (ts : List Tree) : p ≤ p.pastAll ts := by
  rw [pastAll_eq_advance]
  exact p.le_advance (Tree.charsOfAll ts)

end Position

namespace Tree

mutual

/-- The characters of a tree are its gap and its text. -/
theorem gap_append_text : ∀ t : Tree, t.gap ++ t.text = t.chars
  | .leaf gap text => by simp [Tree.gap, Tree.text, chars]
  | .node phrase ts => by
    have hstarts := gapOfAll_prefix ts
    rw [Tree.text, Tree.gap, chars]
    exact (List.prefix_iff_eq_append.1 hstarts)

/-- The characters of trees in a row begin with their gap. -/
theorem gapOfAll_prefix : ∀ ts : List Tree, gapOfAll ts <+: charsOfAll ts
  | [] => List.nil_prefix
  | t :: ts => by
    rw [gapOfAll, charsOfAll, ← gap_append_text t, List.append_assoc]
    exact List.prefix_append _ _

end

/-- A tree with a text ends behind the point where its first token begins. -/
theorem ofTree_lt_past (p : Position) {t : Tree} (h : t.text ≠ []) : p.ofTree t < p.past t := by
  rw [Position.past_eq_advance, ← gap_append_text, Position.advance_append]
  exact Position.lt_advance _ h

/-- A phrase has a text if its first tree has one. -/
theorem text_node_ne_nil {phrase : Phrase} {t : Tree} {ts : List Tree} (h : t.text ≠ []) :
    (node phrase (t :: ts)).text ≠ [] := by
  have htext : (node phrase (t :: ts)).text = t.text ++ charsOfAll ts := by
    rw [text, gap, gapOfAll, chars, charsOfAll, ← gap_append_text t, List.append_assoc,
      List.drop_left]
  rw [htext]
  exact List.append_ne_nil_of_left_ne_nil h _

/-- The text of a leaf is the text without its gap. -/
theorem text_leaf (gap text : List Char) : (leaf gap text).text = text := by
  simp [Tree.text, Tree.gap, chars]

/-! ## All trees within a tree -/

mutual

/-- All trees within a tree, itself first and the others in the order of the text, each with the
point where its gap begins. -/
def within (p : Position) : Tree → List (Position × Tree)
  | .leaf gap text => [(p, .leaf gap text)]
  | .node phrase parts => (p, .node phrase parts) :: withinAll p parts

/-- All trees within trees that stand in a row. -/
def withinAll (p : Position) : List Tree → List (Position × Tree)
  | [] => []
  | t :: ts => within p t ++ withinAll (p.past t) ts

end

/-- The trees within a row are those within its first part, and those within the rest, further on.
-/
theorem withinAll_append (p : Position) (ts us : List Tree) :
    withinAll p (ts ++ us) = withinAll p ts ++ withinAll (p.pastAll ts) us := by
  induction ts generalizing p with
  | nil => rfl
  | cons t ts ih =>
    rw [List.cons_append, withinAll, withinAll, ih, List.append_assoc, Position.pastAll]

/-- A tree stands somewhere in a tree. -/
inductive IsIn : Tree → Tree → Prop
  | whole (t : Tree) : IsIn t t
  | part {t u : Tree} {phrase : Phrase} {parts : List Tree} (hu : u ∈ parts) (h : IsIn t u) :
    IsIn t (.node phrase parts)

mutual

/-- The trees within a tree are those that stand somewhere in it. -/
theorem exists_mem_within_iff (t : Tree) (p : Position) :
    ∀ u : Tree, (∃ q, (q, t) ∈ u.within p) ↔ t.IsIn u
  | .leaf gap text => by
    constructor
    · rintro ⟨q, hq⟩
      cases List.mem_singleton.1 hq
      exact .whole _
    · rintro ⟨⟩
      exact ⟨p, List.mem_cons_self⟩
  | .node phrase parts => by
    have hparts := exists_mem_withinAll_iff t p parts
    constructor
    · rintro ⟨q, hq⟩
      rcases List.mem_cons.1 hq with heq | hq
      · cases heq
        exact .whole _
      · obtain ⟨u, hu, h⟩ := hparts.1 ⟨q, hq⟩
        exact .part hu h
    · rintro (_ | ⟨hu, h⟩)
      · exact ⟨p, List.mem_cons_self⟩
      · obtain ⟨q, hq⟩ := hparts.2 ⟨_, hu, h⟩
        exact ⟨q, List.mem_cons_of_mem _ hq⟩

/-- The trees within trees in a row are those that stand somewhere in one of them. -/
theorem exists_mem_withinAll_iff (t : Tree) (p : Position) :
    ∀ us : List Tree, (∃ q, (q, t) ∈ withinAll p us) ↔ ∃ u ∈ us, t.IsIn u
  | [] => by simp [withinAll]
  | u :: us => by
    rw [List.exists_mem_cons_iff, ← exists_mem_within_iff t p u,
      ← exists_mem_withinAll_iff t (p.past u) us, ← exists_or]
    simp only [withinAll, List.mem_append]

end

end Tree

/-! ## What the grammar says about the nodes -/

variable {g : Grammar} {xs : List Symbol} {ts : List Tree} {set : Symbol → Bool}

/-- The parts of a symbol in a set are in it. -/
def keepsAll (set : Symbol → Bool) (x : Symbol) (parts : List Symbol) : Bool :=
  !set x || parts.all set

/-- A symbol has no node, so that the trees of its parts stand in its place. -/
def Symbol.gathers : Symbol → Bool
  | .phrase p => p.isTransparent
  | _ => true

/-- A symbol leaves its trees as they are or puts them into one node. -/
theorem Symbol.wrap_eq (x : Symbol) (ts : List Tree) :
    x.gathers = true ∧ x.wrap ts = ts ∨
      ∃ p, x = .phrase p ∧ p.isTransparent = false ∧ x.wrap ts = [.node p ts] := by
  cases x with
  | token t => exact .inl ⟨rfl, rfl⟩
  | series body => exact .inl ⟨rfl, rfl⟩
  | phrase p =>
    cases hp : p.isTransparent with
    | true => exact .inl ⟨hp, by rw [wrap, if_pos hp]⟩
    | false => exact .inr ⟨p, rfl, hp, by rw [wrap, hp, if_neg Bool.false_ne_true]⟩

/-- The parts of a symbol in a set that has no node are in the set. -/
def keepsRoots (set : Symbol → Bool) (x : Symbol) (parts : List Symbol) : Bool :=
  !x.gathers || keepsAll set x parts

/-- A test that all forms pass holds of whatever a symbol is made of; an empty script has to pass
it too. -/
theorem test_of_builds {test : Symbol → List Symbol → Bool} (h : g.allForms test = true)
    (hempty : test (.phrase .script) [] = true) {x : Symbol} {parts : List Symbol}
    (hx : Builds g x parts) : test x parts = true := by
  cases hx with
  | made hx => exact test_of_makes h hx
  | empty => exact hempty

private theorem all_of_builds {x : Symbol} {parts : List Symbol}
    (h : g.allForms (keepsAll set) = true) (hx : Builds g x parts) (hset : set x = true) :
    ∀ y ∈ parts, set y = true := by
  have htest := test_of_builds h (by simp [keepsAll]) hx
  simpa [keepsAll, hset] using htest

/-- Each node within trees that grow from symbols of a closed set is of this set and stands for a
form of its phrase. -/
theorem Grows.of_mem_withinAll (hset : g.allForms (keepsAll set) = true) (h : Grows g xs ts)
    (hxs : ∀ x ∈ xs, set x = true) {p q : Position} {phrase : Phrase} {parts : List Tree}
    (hmem : (q, .node phrase parts) ∈ Tree.withinAll p ts) :
    set (.phrase phrase) = true ∧ ∃ ys, Builds g (.phrase phrase) ys ∧ Grows g ys parts := by
  induction h generalizing p with
  | nil => cases hmem
  | blank _ _ ih => exact ih (List.forall_mem_cons.1 hxs).2 hmem
  | leaf _ _ _ ih =>
    rw [Tree.withinAll, Tree.within, List.singleton_append, List.mem_cons] at hmem
    rcases hmem with heq | hmem
    · cases heq
    · exact ih (List.forall_mem_cons.1 hxs).2 hmem
  | @made x ys xs inner ts hx hinner _ ihinner ih =>
    rw [List.forall_mem_cons] at hxs
    rw [Tree.withinAll_append, List.mem_append] at hmem
    rcases hmem with hmem | hmem
    · have hinside := ihinner (p := p) (all_of_builds hset hx hxs.1)
      rcases x.wrap_eq inner with ⟨-, heq⟩ | ⟨p', rfl, -, heq⟩ <;> rw [heq] at hmem
      · exact hinside hmem
      · rw [Tree.withinAll, Tree.withinAll, List.append_nil, Tree.within, List.mem_cons] at hmem
        rcases hmem with heq | hmem
        · cases heq
          exact ⟨hxs.1, ys, hx, ‹_›⟩
        · exact hinside hmem
    · exact ih hxs.2 hmem

/-- Each node of a script other than the script itself stands for a form of its phrase. -/
theorem Tree.IsScript.of_mem_within {t : Tree} (h : t.IsScript g) {p q : Position}
    {phrase : Phrase} {parts : List Tree} (hphrase : phrase ≠ .script)
    (hmem : (q, .node phrase parts) ∈ t.within p) :
    ∃ ys, Builds g (.phrase phrase) ys ∧ Grows g ys parts := by
  obtain ⟨ts, gap, rfl, hgrows⟩ := h
  have hall : g.allForms (keepsAll fun _ => true) = true := by
    simp [Grammar.allForms, keepsAll]
  rcases List.mem_cons.1 hmem with heq | hmem
  · cases heq
    exact absurd rfl hphrase
  · rw [Tree.withinAll_append, List.mem_append] at hmem
    rcases hmem with hmem | hmem
    · exact (hgrows.of_mem_withinAll hall (fun _ _ => rfl) hmem).2
    · simp [Tree.withinAll, Tree.within] at hmem

/-- A tree that grows from a symbol of a set: a leaf has the text of a token of the set, and a node
is of a phrase of the set and stands for a form of it. -/
def Tree.IsRoot (g : Grammar) (set : Symbol → Bool) : Tree → Prop
  | .leaf _ text => ∃ t : Token, set (.token t) = true ∧ text ≠ [] ∧ t.HasText text
  | .node phrase parts => set (.phrase phrase) = true ∧ phrase.isTransparent = false ∧
      ∃ ys, Builds g (.phrase phrase) ys ∧ Grows g ys parts

/-- Each tree among those that grow from symbols of a set that is closed at roots grows from a
symbol of the set. -/
theorem Grows.isRoot_of_mem (hset : g.allForms (keepsRoots set) = true) (h : Grows g xs ts)
    (hxs : ∀ x ∈ xs, set x = true) : ∀ t ∈ ts, t.IsRoot g set := by
  induction h with
  | nil => exact List.forall_mem_nil _
  | blank _ _ ih => exact ih (List.forall_mem_cons.1 hxs).2
  | leaf hne ht _ ih =>
    rw [List.forall_mem_cons] at hxs
    exact List.forall_mem_cons.2 ⟨⟨_, hxs.1, hne, ht⟩, ih hxs.2⟩
  | @made x ys xs inner ts hx hinner _ ihinner ih =>
    rw [List.forall_mem_cons] at hxs
    refine List.forall_mem_append.2 ⟨?_, ih hxs.2⟩
    rcases x.wrap_eq inner with ⟨hgathers, heq⟩ | ⟨p, rfl, hp, heq⟩ <;> rw [heq]
    · have htest := test_of_builds hset (by simp [keepsRoots, keepsAll]) hx
      exact ihinner (by simpa [keepsRoots, keepsAll, hgathers, hxs.1] using htest)
    · exact List.forall_mem_singleton.2 ⟨hxs.1, hp, ys, hx, hinner⟩

/-- Each node that grows from symbols of a set that is closed at roots is of this set and stands for
a form of its phrase. -/
theorem Grows.of_mem (hset : g.allForms (keepsRoots set) = true) (h : Grows g xs ts)
    (hxs : ∀ x ∈ xs, set x = true) {phrase : Phrase} {parts : List Tree}
    (hmem : .node phrase parts ∈ ts) :
    set (.phrase phrase) = true ∧ phrase.isTransparent = false ∧
      ∃ ys, Builds g (.phrase phrase) ys ∧ Grows g ys parts :=
  h.isRoot_of_mem hset hxs _ hmem

/-- Each leaf among trees that grow from symbols of a set that is closed at roots has the text of a
token of this set. -/
theorem Grows.of_mem_leaf (hset : g.allForms (keepsRoots set) = true) (h : Grows g xs ts)
    (hxs : ∀ x ∈ xs, set x = true) {gap text : List Char} (hmem : .leaf gap text ∈ ts) :
    ∃ t : Token, set (.token t) = true ∧ text ≠ [] ∧ t.HasText text :=
  h.isRoot_of_mem hset hxs _ hmem

/-! ## Trees that grow from given symbols -/

/-- Nothing grows from no symbol. -/
theorem Grows.eq_nil (h : Grows g [] ts) : ts = [] := by
  cases h
  rfl

/-- The trees of the first symbols come first. -/
theorem Grows.of_append {ys : List Symbol} (h : Grows g (xs ++ ys) ts) :
    ∃ us vs, ts = us ++ vs ∧ Grows g xs us ∧ Grows g ys vs := by
  induction xs generalizing ts with
  | nil => exact ⟨[], ts, rfl, .nil, h⟩
  | cons x xs ih =>
    rw [List.cons_append] at h
    cases h with
    | blank ht h =>
      obtain ⟨us, vs, rfl, hus, hvs⟩ := ih h
      exact ⟨us, vs, rfl, .blank ht hus, hvs⟩
    | @leaf _ gap text _ ts hne ht h =>
      obtain ⟨us, vs, rfl, hus, hvs⟩ := ih h
      exact ⟨.leaf gap text :: us, vs, rfl, .leaf hne ht hus, hvs⟩
    | @made _ _ _ inner _ hx hinner h =>
      obtain ⟨us, vs, rfl, hus, hvs⟩ := ih h
      exact ⟨x.wrap inner ++ us, vs, (List.append_assoc _ _ _).symm, .made hx hinner hus, hvs⟩

/-- A token has a leaf, or it has no text. -/
theorem Grows.of_token {t : Token} (h : Grows g (.token t :: xs) ts) :
    t.HasText [] ∧ Grows g xs ts ∨
      ∃ gap text us, ts = .leaf gap text :: us ∧ text ≠ [] ∧ t.HasText text ∧ Grows g xs us := by
  cases h with
  | blank hblank h => exact .inl ⟨hblank, h⟩
  | leaf hne htext h => exact .inr ⟨_, _, _, rfl, hne, htext, h⟩
  | made hx _ _ => cases hx with | made hx => cases hx

/-- A phrase that has a node is one tree. -/
theorem Grows.of_phrase {p : Phrase} (hp : p.isTransparent = false)
    (h : Grows g (.phrase p :: xs) ts) :
    ∃ ys inner us, ts = .node p inner :: us ∧ Makes g (.phrase p) ys ∧ Grows g ys inner ∧
      Grows g xs us := by
  cases h with
  | made hx hinner h =>
    cases hx with
    | empty => cases hp
    | made hx =>
      refine ⟨_, _, _, ?_, hx, hinner, h⟩
      rw [Symbol.wrap, hp, if_neg Bool.false_ne_true, List.singleton_append]

end ScriptDeps.Source
