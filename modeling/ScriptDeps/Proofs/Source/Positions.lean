import ScriptDeps.Proofs.Source.Nodes
import ScriptDeps.Proofs.Source.Shift

/-!
# Points of a script and what stands there

The point behind a text is told by the text: the complete lines in it are the lines above, and the
bytes behind them are the column. A tree within a tree is a slice of its characters, and its point
is the one behind what stands before the slice. Trees that are listed later stand inside or behind.
Main statements: `isBehind_advance`, `exists_slice_of_mem_within` and `pairwise_within`.
-/

namespace ScriptDeps.Source

open ScriptDeps.Text

/-! ## Points behind a text -/

/-- The point behind a text: on the line below its complete lines, behind the bytes of the
others. -/
def Position.IsBehind (p : Position) (s : List Char) : Prop :=
  ∃ (above : List (List Char)) (last : List Char), s = above.flatten ++ last ∧
    (∀ line ∈ above, Complete line) ∧ '\n' ∉ last ∧ p = ⟨above.length + 1, byteLength last⟩

namespace Position

/-- A text on one line moves the column on by its bytes. -/
theorem advance_of_not_mem {s : List Char} (hs : '\n' ∉ s) (p : Position) :
    p.advance s = ⟨p.line, p.column + byteLength s⟩ := by
  induction s generalizing p with
  | nil => rfl
  | cons c s ih =>
    have hc : c ≠ '\n' := fun h => hs (h ▸ List.mem_cons_self)
    have hrest := ih (fun h => hs (List.mem_cons_of_mem _ h)) (p.next c)
    rw [next, if_neg hc] at hrest
    have hstep : p.advance (c :: s) = (p.next c).advance s := rfl
    rw [hstep, next, if_neg hc, hrest, byteLength, Nat.add_assoc]

/-- Every text is complete lines and a last one without a newline. -/
theorem exists_lines (s : List Char) :
    ∃ (above : List (List Char)) (last : List Char), s = above.flatten ++ last ∧
      (∀ line ∈ above, Complete line) ∧ '\n' ∉ last := by
  induction s with
  | nil => exact ⟨[], [], rfl, List.forall_mem_nil _, List.not_mem_nil⟩
  | cons c s ih =>
    obtain ⟨above, last, rfl, habove, hlast⟩ := ih
    by_cases hc : c = '\n'
    · subst hc
      have hline : Complete ['\n'] := ⟨[], List.not_mem_nil, rfl⟩
      exact ⟨['\n'] :: above, last, rfl, List.forall_mem_cons.2 ⟨hline, habove⟩, hlast⟩
    · cases above with
      | nil =>
        have hmem : '\n' ∉ c :: last := List.not_mem_cons_of_ne_of_not_mem (Ne.symm hc) hlast
        exact ⟨[], c :: last, rfl, List.forall_mem_nil _, hmem⟩
      | cons line above =>
        rw [List.forall_mem_cons] at habove
        obtain ⟨⟨t, ht, rfl⟩, habove⟩ := habove
        have hmem : '\n' ∉ c :: t := List.not_mem_cons_of_ne_of_not_mem (Ne.symm hc) ht
        have hline : Complete (c :: t ++ ['\n']) := ⟨c :: t, hmem, rfl⟩
        exact ⟨(c :: t ++ ['\n']) :: above, last, rfl,
          List.forall_mem_cons.2 ⟨hline, habove⟩, hlast⟩

/-- Passing a text from the first point of a script leads to the point behind it. -/
theorem isBehind_advance (s : List Char) : (start.advance s).IsBehind s := by
  obtain ⟨above, last, rfl, habove, hlast⟩ := exists_lines s
  refine ⟨above, last, rfl, habove, hlast, ?_⟩
  rw [advance_append, advance_flatten habove rfl, advance_of_not_mem hlast]
  simp [down, start, Nat.add_comm]

end Position

/-! ## Slices -/

namespace Tree

mutual

/-- A tree within a tree is a slice of its characters, at the point behind what stands before. -/
theorem exists_slice_of_mem_within {p q : Position} {u : Tree} : ∀ t : Tree, (q, u) ∈ t.within p →
    ∃ before rest, t.chars = before ++ u.chars ++ rest ∧ q = p.advance before
  | .leaf gap text, h => by
    cases List.mem_singleton.1 h
    exact ⟨[], [], (List.append_nil _).symm, rfl⟩
  | .node phrase parts, h => by
    rcases List.mem_cons.1 h with heq | h
    · cases heq
      exact ⟨[], [], (List.append_nil _).symm, rfl⟩
    · exact exists_slice_of_mem_withinAll parts h

/-- A tree within trees in a row is a slice of their characters. -/
theorem exists_slice_of_mem_withinAll {p q : Position} {u : Tree} : ∀ ts : List Tree,
    (q, u) ∈ withinAll p ts →
    ∃ before rest, charsOfAll ts = before ++ u.chars ++ rest ∧ q = p.advance before
  | [], h => by cases h
  | t :: ts, h => by
    rcases List.mem_append.1 h with h | h
    · obtain ⟨before, rest, hchars, hq⟩ := exists_slice_of_mem_within t h
      exact ⟨before, rest ++ charsOfAll ts, by simp [charsOfAll, hchars], hq⟩
    · obtain ⟨before, rest, hchars, hq⟩ := exists_slice_of_mem_withinAll ts h
      refine ⟨t.chars ++ before, rest, by simp [charsOfAll, hchars], ?_⟩
      rw [hq, Position.past_eq_advance, Position.advance_append]

end

/-- The text of a tree within a tree is a slice of its characters, and its first token begins at the
point behind what stands before. -/
theorem exists_text_of_mem_within {t u : Tree} {p q : Position} (h : (q, u) ∈ t.within p) :
    ∃ before rest, t.chars = before ++ u.text ++ rest ∧ q.ofTree u = p.advance before := by
  obtain ⟨before, rest, hchars, rfl⟩ := exists_slice_of_mem_within t h
  refine ⟨before ++ u.gap, rest, ?_, (Position.advance_append _ _ _).symm⟩
  rw [hchars, ← gap_append_text u]
  simp

/-! ## Order -/

mutual

/-- A tree within a tree stands neither in front of it nor behind it. -/
theorem bounds_of_mem_within {p q : Position} {u : Tree} : ∀ t : Tree, (q, u) ∈ t.within p →
    p ≤ q ∧ q.past u ≤ p.past t
  | .leaf gap text, h => by
    cases List.mem_singleton.1 h
    exact ⟨le_refl _, le_refl _⟩
  | .node phrase parts, h => by
    rcases List.mem_cons.1 h with heq | h
    · cases heq
      exact ⟨le_refl _, le_refl _⟩
    · exact bounds_of_mem_withinAll parts h

/-- A tree within trees in a row stands neither in front of them nor behind them. -/
theorem bounds_of_mem_withinAll {p q : Position} {u : Tree} : ∀ ts : List Tree,
    (q, u) ∈ withinAll p ts → p ≤ q ∧ q.past u ≤ p.pastAll ts
  | [], h => by cases h
  | t :: ts, h => by
    rcases List.mem_append.1 h with h | h
    · obtain ⟨hp, hq⟩ := bounds_of_mem_within t h
      exact ⟨hp, hq.trans (Position.le_pastAll _ ts)⟩
    · obtain ⟨hp, hq⟩ := bounds_of_mem_withinAll ts h
      exact ⟨(p.le_past t).trans hp, hq⟩

end

/-- A tree comes later than another one: it stands in it or behind it. -/
def Later (x y : Position × Tree) : Prop :=
  y ∈ withinAll x.1 x.2.children ∨ x.1.past x.2 ≤ y.1

mutual

/-- Of the trees within a tree each comes later than those listed before it. -/
theorem pairwise_within (p : Position) : ∀ t : Tree, (t.within p).Pairwise Later
  | .leaf _ _ => List.pairwise_singleton _ _
  | .node _ parts =>
    List.pairwise_cons.2 ⟨fun _ hy => .inl hy, pairwise_withinAll p parts⟩

/-- Of the trees within trees in a row each comes later than those listed before it. -/
theorem pairwise_withinAll (p : Position) : ∀ ts : List Tree, (withinAll p ts).Pairwise Later
  | [] => .nil
  | t :: ts => by
    refine List.pairwise_append.2
      ⟨pairwise_within p t, pairwise_withinAll (p.past t) ts, fun x hx y hy => .inr ?_⟩
    exact (bounds_of_mem_within t hx).2.trans (bounds_of_mem_withinAll ts hy).1

end

end Tree

end ScriptDeps.Source
