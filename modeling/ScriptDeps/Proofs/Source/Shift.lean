import ScriptDeps.Proofs.Text.Lines
import ScriptDeps.Source.Position

/-!
# Points further down

Complete lines in front of a text move every point of it down, by as many lines as they are, and
leave its column as it is.
-/

namespace ScriptDeps.Source.Position

open ScriptDeps.Text

variable {n : Nat} {p : Position}

/-- The point that is some lines further down. -/
def down (n : Nat) (p : Position) : Position := ⟨p.line + n, p.column⟩

/-- A character moves a position on by the same, some lines further down. -/
theorem next_down (n : Nat) (p : Position) (c : Char) : (p.down n).next c = (p.next c).down n := by
  unfold next
  split
  · simp [down, Nat.add_right_comm]
  · rfl

/-- A text leads as far down from a point further down. -/
theorem advance_down (n : Nat) (p : Position) (s : List Char) :
    (p.down n).advance s = (p.advance s).down n := by
  unfold advance
  induction s generalizing p with
  | nil => rfl
  | cons c s ih => rw [List.foldl_cons, List.foldl_cons, next_down, ih]

/-- A tree moves a position on by the same, some lines further down. -/
theorem past_down (n : Nat) (p : Position) (t : Tree) : (p.down n).past t = (p.past t).down n := by
  rw [past_eq_advance, past_eq_advance, advance_down]

/-- A tree stands as many lines further down as its gap begins. -/
theorem ofTree_down (n : Nat) (p : Position) (t : Tree) :
    (p.down n).ofTree t = (p.ofTree t).down n :=
  advance_down n p t.gap

/-- Behind a stretch of a line and its newline the next line begins. -/
theorem advance_append_newline {s : List Char} (hs : '\n' ∉ s) (p : Position) :
    p.advance (s ++ ['\n']) = ⟨p.line + 1, 0⟩ := by
  induction s generalizing p with
  | nil => rfl
  | cons c s ih =>
    have hc : c ≠ '\n' := fun h => hs (h ▸ List.mem_cons_self)
    have hnext : (p.next c).line = p.line := by rw [next, if_neg hc]
    have hrest := ih (fun h => hs (List.mem_cons_of_mem _ h)) (p.next c)
    rw [hnext] at hrest
    exact hrest

/-- Behind complete lines a line begins that is as many lines further down. -/
theorem advance_flatten {lines : List (List Char)} (h : ∀ l ∈ lines, Complete l)
    (hp : p.column = 0) : p.advance lines.flatten = p.down lines.length := by
  induction lines generalizing p with
  | nil => rfl
  | cons line lines ih =>
    obtain ⟨s, hs, rfl⟩ := h line List.mem_cons_self
    rw [List.flatten_cons, advance_append, advance_append_newline hs,
      ih (fun l hl => h l (List.mem_cons_of_mem _ hl)) rfl, down, down, List.length_cons, hp]
    simp only [mk.injEq, and_true]
    omega

end ScriptDeps.Source.Position
