import ScriptDeps.Source.Tree

/-!
# Positions

A position is a line, counted from one, and the number of bytes before it on that line.
-/

namespace ScriptDeps.Source

/-- A point of a script. -/
structure Position where
  /-- The line, counted from one. -/
  line : Nat
  /-- The bytes before the point on its line. -/
  column : Nat
  deriving DecidableEq, Repr

namespace Position

/-- The first point of a script. -/
def start : Position := ⟨1, 0⟩

/-- The point after one character. -/
def next (p : Position) (c : Char) : Position :=
  if c = '\n' then ⟨p.line + 1, 0⟩ else ⟨p.line, p.column + c.utf8Size⟩

/-- The point after a text. -/
def advance (p : Position) (s : List Char) : Position := s.foldl next p

/-- A text can be passed in two steps. -/
theorem advance_append (p : Position) (s t : List Char) :
    p.advance (s ++ t) = (p.advance s).advance t := by
  simp [advance]

mutual

/-- The point behind a tree. -/
def past (p : Position) : Tree → Position
  | .leaf gap text => (p.advance gap).advance text
  | .node _ children => pastAll p children

/-- The point behind trees in a row. -/
def pastAll (p : Position) : List Tree → Position
  | [] => p
  | t :: ts => (p.past t).pastAll ts

end

mutual

/-- Passing a tree is passing its characters. -/
theorem past_eq_advance (p : Position) : ∀ t : Tree, p.past t = p.advance t.chars
  | .leaf gap text => (p.advance_append gap text).symm
  | .node _ children => pastAll_eq_advance p children

/-- Passing trees is passing their characters. -/
theorem pastAll_eq_advance (p : Position) :
    ∀ ts : List Tree, p.pastAll ts = p.advance (Tree.charsOfAll ts)
  | [] => rfl
  | t :: ts => by
    rw [pastAll, past_eq_advance p t, pastAll_eq_advance _ ts, Tree.charsOfAll, advance_append]

end

/-- Trees in a row can be passed in two steps. -/
theorem pastAll_append (p : Position) (ts us : List Tree) :
    p.pastAll (ts ++ us) = (p.pastAll ts).pastAll us := by
  induction ts generalizing p with
  | nil => rfl
  | cons t ts ih => exact ih (p.past t)

/-- The point where the first token of a tree begins, given the point where its gap begins. -/
def ofTree (p : Position) (t : Tree) : Position := p.advance t.gap

end Position

/-- Trees in a row, each with the point where its first token begins. -/
def Tree.located (p : Position) : List Tree → List (Position × Tree)
  | [] => []
  | t :: ts => (p.ofTree t, t) :: located (p.past t) ts

end ScriptDeps.Source
