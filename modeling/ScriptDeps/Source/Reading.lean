import ScriptDeps.Source.Automaton
import ScriptDeps.Source.Lexeme
import ScriptDeps.Source.Tree

/-!
# Readings

Where the automaton leaves a choice, a script is read in several ways at once. A `Reading` is one
way to read the script up to a point: the phrases and tokens that wait to become parts of larger
phrases. Readings that stand at the same point in the same state are one `Version`.
-/

namespace ScriptDeps.Source

/-- A state on the way of a reading, with the trees that led there. -/
structure Frame where
  /-- The state. -/
  state : Automaton.State
  /-- The trees, last first. -/
  trees : List Tree

/-- The trees of frames, last first. -/
def Frame.treesOf : List Frame → List Tree
  | [] => []
  | [f] => f.trees
  | f :: g :: frames => f.trees ++ treesOf (g :: frames)

/-- The trees of the last frame come first. -/
theorem Frame.treesOf_cons (f : Frame) (frames : List Frame) :
    treesOf (f :: frames) = f.trees ++ treesOf frames := by
  cases frames <;> simp [treesOf]

/-- One way to read a script up to a point. -/
structure Reading where
  /-- The states on the way, last first; the state at the start of the script is left out. -/
  frames : List Frame
  /-- What was gained by the forms that were taken. -/
  weight : Int

namespace Reading

/-- The state in which a reading stands. -/
def state (a : Automaton) (r : Reading) : Automaton.State := r.frames.head?.elim a.start (·.state)

/-- The tree of a phrase, or the trees that it only gathers. -/
def wrap (symbol : Option Symbol) (trees : List Tree) : List Tree :=
  match symbol with
  | some (.phrase p) => if p.isTransparent then trees else [.node p trees.reverse]
  | _ => trees

/-- Close the phrase of an item whose parts have been read. -/
def close (a : Automaton) (i : Automaton.Item) (r : Reading) : Reading :=
  let (parts, frames) := r.frames.splitAt i.taken
  let before : Reading := ⟨frames, r.weight + i.weight⟩
  { before with
    frames :=
      ⟨a.after (before.state a) (.phrase i.left),
        wrap a.numbering.phrases[i.left]? (Frame.treesOf parts)⟩ :: frames }

/-- Two readings went through the same states. -/
def sameWay (r s : Reading) : Bool := r.frames.map (·.state) == s.frames.map (·.state)

/-- Put a reading to others. Of two that went through the same states the heavier one stays, of two
that weigh the same the one that was there. -/
def addTo (r : Reading) : List Reading → List Reading
  | [] => [r]
  | s :: readings =>
    if r.sameWay s then (if s.weight < r.weight then r else s) :: readings
    else s :: r.addTo readings

end Reading

/-- A point of a script that is being read. -/
structure Place where
  /-- How many characters have been read. -/
  offset : Nat
  /-- What has been read behind the last token. -/
  gap : List Char
  /-- What is open. -/
  nesting : Nesting
  /-- The text that follows. -/
  rest : List Char

namespace Place

/-- The start of a script. A byte order mark in front of it has been read. -/
def start : List Char → Place
  | '\ufeff' :: rest => ⟨1, ['\ufeff'], .none, rest⟩
  | source => ⟨0, [], .none, source⟩

/-- The first lexeme at a place. -/
def lexeme? (p : Place) (e : Expected) : Option Lexeme := Lexeme.first? e p.nesting p.rest

/-- The place behind a lexeme, and the tree of its token if it has a text. -/
def take (p : Place) (l : Lexeme) : Place × List Tree :=
  let offset := p.offset + l.gap.length + l.text.length
  if l.text.isEmpty then (⟨offset, p.gap ++ l.gap, l.nesting, l.rest⟩, [])
  else (⟨offset, [], l.nesting, l.rest⟩, [.leaf (p.gap ++ l.gap) l.text])

/-- The place behind a lexeme that may stand between any two tokens. -/
def skip (p : Place) (l : Lexeme) : Place :=
  ⟨p.offset + l.gap.length + l.text.length, p.gap ++ l.gap ++ l.text, l.nesting, l.rest⟩

/-- Two places are the same: as much has been read, the same of it behind the last token, and the
same is open. -/
def same (p q : Place) : Bool := p.offset == q.offset && p.gap == q.gap && p.nesting == q.nesting

end Place

/-- Whether a version goes on. -/
inductive Status where
  /-- It goes on. -/
  | active
  /-- The next token does not fit. -/
  | stuck
  /-- Other versions go on in its place, or it has come to the end of the script. -/
  | done
  deriving DecidableEq, Repr

/-- Readings that stand at the same place in the same state. -/
structure Version where
  /-- The readings. -/
  readings : List Reading
  /-- The place. -/
  place : Place
  /-- Whether the version goes on. -/
  status : Status

namespace Version

/-- The version at the start of a script. -/
def start (source : List Char) : Version := ⟨[⟨[], 0⟩], .start source, .active⟩

/-- The state in which a version stands. -/
def state (a : Automaton) (v : Version) : Automaton.State :=
  v.readings.head?.elim a.start (·.state a)

/-- The weight of the heaviest reading. -/
def weight (v : Version) : Int :=
  v.readings.foldl (fun top r => max top r.weight) ((v.readings.map (·.weight)).headD 0)

/-- Two versions can be made one. -/
def meets (a : Automaton) (v w : Version) : Bool :=
  v.status == .active && w.status == .active && v.place.same w.place && v.state a == w.state a

/-- The readings of two versions. -/
def join (v w : Version) : Version :=
  { v with readings := w.readings.foldl (fun readings r => r.addTo readings) v.readings }

/-- Take a token. -/
def take (a : Automaton) (v : Version) (l : Lexeme) : Version :=
  let state := a.after (v.state a) (.token (a.numbering.tokenNumber l.token))
  let (place, trees) := v.place.take l
  { v with
    place
    readings := v.readings.map fun r => { r with frames := ⟨state, trees⟩ :: r.frames } }

/-- Put a version behind others. A stuck version gives way to an active one, and of two active
versions the heavier one goes first; where they can be made one the lighter one gives way. -/
def rank (a : Automaton) (v : Version) : List Version → List Version
  | [] => [v]
  | w :: versions =>
    if w.status = .active ∧ v.status = .stuck then w :: versions
    else if w.status = .stuck ∧ v.status = .active then rank a v versions
    else if w.status = .stuck ∧ v.status = .stuck then w :: rank a v versions
    else if w.weight = v.weight then
      if w.meets a v then w.join v :: versions else w :: rank a v versions
    else if v.weight < w.weight then
      if w.meets a v then w :: versions else w :: rank a v versions
    else if w.meets a v then rank a v versions
    else v :: rank a w versions

end Version

end ScriptDeps.Source
