import ScriptDeps.Source.Automaton.Numbering

/-!
# Items

While a script is read, an item is a phrase of which some parts have been read. Two items are the
same when the same parts are still to come, whatever the parts before. A `State`, a list of items
with the tokens that may follow each phrase, says where in the grammar a reading stands.
-/

namespace ScriptDeps.Source.Automaton

/-- A phrase of which some parts have been read. -/
structure Item where
  /-- How many parts have been read. -/
  taken : Nat
  /-- The phrase. -/
  left : Nat
  /-- How much a reading gains by the form. -/
  weight : Int
  /-- How strongly the form binds. -/
  level : Int
  /-- How the form groups. -/
  side : Option Side
  /-- The parts still to come. -/
  rest : List Part
  deriving DecidableEq, Repr, Ord

namespace Item

/-- The item of a production of which nothing has been read. -/
def ofProduction (p : Production) : Item := ⟨0, p.left, p.weight, p.level, p.side, p.parts⟩

/-- The item with one more part read. -/
def next (i : Item) : Item := { i with taken := i.taken + 1, rest := i.rest.tail }

/-- The item expects a part. -/
def expects (i : Item) (x : Part) : Bool := i.rest.head? = some x

/-- Put an item into an ordered list that has no item twice. -/
def insert (i : Item) : List Item → List Item
  | [] => [i]
  | j :: items =>
    match compare i j with
    | .lt => i :: j :: items
    | .eq => j :: items
    | .gt => j :: insert i items

end Item

/-- Where in the grammar a reading stands: items, each with the tokens that may follow it. -/
abbrev State := List (Item × TokenSet)

end ScriptDeps.Source.Automaton
