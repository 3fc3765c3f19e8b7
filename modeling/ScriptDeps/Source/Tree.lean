import ScriptDeps.Source.Phrase

/-!
# Syntax trees

A tree keeps every character of the script it was read from: each leaf is a token together with the
gap before it. Texts and positions of a subtree are therefore computed and not stored.
-/

namespace ScriptDeps.Source

/-- A part of a script. -/
inductive Tree where
  /-- A gap and the text of the token behind it. -/
  | leaf (gap text : List Char)
  /-- A phrase. -/
  | node (phrase : Phrase) (children : List Tree)
  deriving Repr, Inhabited

namespace Tree

mutual

/-- The characters of a tree, gaps included. -/
def chars : Tree → List Char
  | .leaf gap text => gap ++ text
  | .node _ children => charsOfAll children

/-- The characters of trees in a row. -/
def charsOfAll : List Tree → List Char
  | [] => []
  | t :: ts => chars t ++ charsOfAll ts

end

/-- The characters of trees in a row follow one another. -/
theorem charsOfAll_append (ts us : List Tree) :
    charsOfAll (ts ++ us) = charsOfAll ts ++ charsOfAll us := by
  induction ts with
  | nil => rfl
  | cons t ts ih => rw [List.cons_append, charsOfAll, charsOfAll, ih, List.append_assoc]

mutual

/-- The gap before the first token of a tree. -/
def gap : Tree → List Char
  | .leaf gap _ => gap
  | .node _ children => gapOfAll children

/-- The gap before the first of trees in a row. -/
def gapOfAll : List Tree → List Char
  | [] => []
  | t :: _ => gap t

end

/-- The text of a tree from its first token to the end of its last. -/
def text (t : Tree) : List Char := t.chars.drop t.gap.length

/-- A tree is of a phrase. -/
def isOf (phrase : Phrase) : Tree → Bool
  | .leaf _ _ => false
  | .node p _ => p == phrase

/-- The parts of a tree. -/
def children : Tree → List Tree
  | .leaf _ _ => []
  | .node _ children => children

end Tree

end ScriptDeps.Source
