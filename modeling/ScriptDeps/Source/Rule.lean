import ScriptDeps.Source.Phrase

/-!
# Rules of a grammar

A grammar gives every phrase some forms. A `Form` is a `Rule`, which says of what parts the phrase
is made, with the strength and the direction in which it binds where two forms compete.
`Form.expand` writes a form out as lists of symbols without choices.
-/

namespace ScriptDeps.Source

/-- What a phrase may be made of. -/
inductive Rule where
  /-- Nothing. -/
  | empty
  /-- One token. -/
  | token (t : Token)
  /-- One phrase. -/
  | phrase (p : Phrase)
  /-- One after the other. -/
  | both (first second : Rule)
  /-- One or the other. -/
  | either (first second : Rule)
  /-- One or more in a row. -/
  | series (body : Rule)
  deriving DecidableEq, Repr

namespace Rule

instance : Coe Phrase Rule := ⟨.phrase⟩
instance : Coe Token Rule := ⟨.token⟩
instance : Coe String Rule := ⟨fun text => .token (.ofText text)⟩

/-- Rules one after another. -/
def seq : List Rule → Rule
  | [] => .empty
  | [r] => r
  | r :: rs => .both r (seq rs)

/-- One of some rules. -/
def oneOf : List Rule → Rule
  | [] => .empty
  | [r] => r
  | r :: rs => .either r (oneOf rs)

/-- A rule that may be left out. -/
def optional (r : Rule) : Rule := .either r .empty

/-- Any number in a row. -/
def many (r : Rule) : Rule := optional (.series r)

/-- One or more with separators between them. -/
def separated (separator r : Rule) : Rule := .both r (many (.both separator r))

/-- One or more with commas between them. -/
def listed (r : Rule) : Rule := separated "," r

/-- One or more with commas between them and maybe one at the end. -/
def trailed (r : Rule) : Rule := .both (listed r) (optional ",")

end Rule

/-- The direction in which a form that competes with itself groups. -/
inductive Side where
  /-- The first two operands belong together. -/
  | left
  /-- The last two operands belong together. -/
  | right
  deriving DecidableEq, Repr, Ord

/-- One form of a phrase. -/
structure Form where
  /-- What the phrase is made of. -/
  rule : Rule
  /-- How strongly the form binds. -/
  level : Int := 0
  /-- How the form groups with forms that bind as strongly. -/
  side : Option Side := none
  /-- How much a reading gains that takes this form. -/
  weight : Int := 0
  deriving DecidableEq, Repr

instance : Coe Rule Form := ⟨fun rule => { rule }⟩

namespace Form

/-- Parts one after another. -/
def seq (parts : List Rule) : Form := { rule := .seq parts }

/-- One of some parts. -/
def oneOf (parts : List Rule) : Form := { rule := .oneOf parts }

/-- Parts one after another, bound with some strength. -/
def tight (level : Int) (parts : List Rule) : Form := { rule := .seq parts, level }

/-- Parts one after another that group to the left. -/
def leftward (level : Int) (parts : List Rule) : Form :=
  { rule := .seq parts, level, side := some .left }

/-- Parts one after another that group to the right. -/
def rightward (level : Int) (parts : List Rule) : Form :=
  { rule := .seq parts, level, side := some .right }

end Form

/-- What a form is made of once its choices are made. -/
inductive Symbol where
  /-- One token. -/
  | token (t : Token)
  /-- One phrase. -/
  | phrase (p : Phrase)
  /-- One or more of a rule in a row. -/
  | series (body : Rule)
  deriving DecidableEq, Repr

namespace Rule

/-- The lists of symbols that a rule allows. -/
def expand : Rule → List (List Symbol)
  | empty => [[]]
  | token t => [[.token t]]
  | phrase p => [[.phrase p]]
  | both r s => r.expand.flatMap fun a => s.expand.map (a ++ ·)
  | either r s => r.expand ++ s.expand
  | series body => [[.series body]]

/-- The tokens that a rule names. -/
def tokens : Rule → List Token
  | empty => []
  | token t => [t]
  | phrase _ => []
  | both r s => r.tokens ++ s.tokens
  | either r s => r.tokens ++ s.tokens
  | series body => body.tokens

/-- The bodies of the series in a rule, inner ones first. -/
def bodies : Rule → List Rule
  | empty => []
  | token _ => []
  | phrase _ => []
  | both r s => r.bodies ++ s.bodies
  | either r s => r.bodies ++ s.bodies
  | series body => body.bodies ++ [body]

end Rule

/-- A grammar: phrases, each with its forms. -/
abbrev Grammar := List (Phrase × List Form)

end ScriptDeps.Source
