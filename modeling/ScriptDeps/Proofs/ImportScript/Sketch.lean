import ScriptDeps.Proofs.Source.Sketch
import ScriptDeps.Source.Script

/-!
# The grammar of import scripts

A script of imports, in blocks that may stand in blocks, needs only a few phrases of the grammar. A
piece is such a phrase or series together with what tells its surroundings apart: whether it stands
in a block, or where a dotted name stands. Main statement: `suits_sketch`, that the automaton goes
through all of them without a choice.
-/

namespace ScriptDeps.ImportScript

open Source Automaton

/-- Where a dotted name stands. -/
inductive Role where
  /-- It is the module that names are imported from. -/
  | source
  /-- It is imported under its own name. -/
  | plain
  /-- It is imported under another name. -/
  | renamed
  deriving DecidableEq

/-- A phrase or series of an import script in its surroundings. -/
inductive Piece where
  /-- The whole script. -/
  | script
  /-- Statements, in a block or not. -/
  | statements (inner : Bool)
  /-- A statement, in a block or not. -/
  | statement (inner : Bool)
  /-- A line, in a block or not. -/
  | line (inner : Bool)
  /-- An import of modules. -/
  | modules
  /-- An import of names. -/
  | names
  /-- An import of language features. -/
  | future
  /-- What is imported. -/
  | list
  /-- What is imported behind the first. -/
  | items
  /-- A dotted name. -/
  | dotted (role : Role)
  /-- What stands behind the first name of a dotted name. -/
  | tail (role : Role)
  /-- A dotted name with another name. -/
  | renamed
  /-- A relative path. -/
  | relative
  /-- The dots of a relative path. -/
  | dots
  /-- Dots in a row. -/
  | dotSeries
  /-- The star. -/
  | star
  /-- A block that a condition opens, in a block or not. -/
  | choice (inner : Bool)
  /-- A block that a function opens, in a block or not. -/
  | function (inner : Bool)
  /-- A block that a class opens, in a block or not. -/
  | record (inner : Bool)
  /-- A condition. -/
  | condition
  /-- A condition as an operand. -/
  | operand
  /-- Parameters of a function. -/
  | parameters
  /-- The inside of a block, in a block or not. -/
  | block (inner : Bool)
  deriving DecidableEq

namespace Piece

open Rule Phrase

/-- The phrase or series that a piece is. -/
def symbol : Piece → Symbol
  | script => .phrase .script
  | statements _ => .series (.phrase .statement)
  | statement _ => .phrase .statement
  | line _ => .phrase .line
  | modules => .phrase .importStatement
  | names => .phrase .fromStatement
  | future => .phrase .futureStatement
  | list => .phrase .importList
  | items => .series (.both "," (oneOf [dottedName, Phrase.renamed]))
  | dotted _ => .phrase .dottedName
  | tail _ => .series (.both "." Token.name)
  | renamed => .phrase .renamed
  | relative => .phrase .relativePath
  | dots => .phrase .dots
  | dotSeries => .series "."
  | star => .phrase .star
  | choice _ => .phrase .ifStatement
  | function _ => .phrase .functionDefinition
  | record _ => .phrase .classDefinition
  | condition => .phrase .expression
  | operand => .phrase .primary
  | parameters => .phrase .parameters
  | block _ => .phrase .block

/-- A word as a part of a form. -/
def word (text : String) : Element Piece := .token (.word text)

/-- A sign as a part of a form. -/
def sign (text : String) : Element Piece := .token (.sign text)

/-- A name as a part of a form. -/
def anyName : Element Piece := .token .name

/-- The forms of a piece. -/
def forms : Piece → List (List (Element Piece))
  | script => [[.piece (statements false)]]
  | statements b => [[.piece (statement b)], [.piece (statements b), .piece (statement b)]]
  | statement b =>
    [[.piece (line b)], [.piece (choice b)], [.piece (function b)], [.piece (record b)]]
  | line _ =>
    [[.piece modules, .token .newline], [.piece names, .token .newline],
     [.piece future, .token .newline]]
  | modules => [[word "import", .piece list]]
  | names =>
    [[word "from", .piece (dotted .source), word "import", .piece star],
     [word "from", .piece relative, word "import", .piece star],
     [word "from", .piece (dotted .source), word "import", .piece list],
     [word "from", .piece relative, word "import", .piece list]]
  | future => [[word "from", word "__future__", word "import", .piece list]]
  | list =>
    [[.piece (dotted .plain)], [.piece renamed], [.piece (dotted .plain), .piece items],
     [.piece renamed, .piece items]]
  | items =>
    [[sign ",", .piece (dotted .plain)], [sign ",", .piece renamed],
     [.piece items, sign ",", .piece (dotted .plain)], [.piece items, sign ",", .piece renamed]]
  | dotted r => [[anyName], [anyName, .piece (tail r)]]
  | tail r => [[sign ".", anyName], [.piece (tail r), sign ".", anyName]]
  | renamed => [[.piece (dotted .renamed), word "as", anyName]]
  | relative => [[.piece dots], [.piece dots, .piece (dotted .source)]]
  | dots => [[.piece dotSeries]]
  | dotSeries => [[sign "."], [.piece dotSeries, sign "."]]
  | star => [[sign "*"]]
  | choice b => [[word "if", .piece condition, sign ":", .token .indent, .piece (block b)]]
  | function b =>
    [[word "def", anyName, .piece parameters, sign ":", .token .indent, .piece (block b)]]
  | record b => [[word "class", anyName, sign ":", .token .indent, .piece (block b)]]
  | condition => [[.piece operand]]
  | operand => [[anyName]]
  | parameters => [[sign "(", sign ")"]]
  | block _ => [[.piece (statements true), .token .dedent]]

/-- The words that a statement begins with. -/
def starters : List Token :=
  [.word "import", .word "from", .word "if", .word "def", .word "class"]

/-- The tokens that a piece begins with. -/
def firsts : Piece → List Token
  | script | statements _ | statement _ | block _ => starters
  | line _ => [.word "import", .word "from"]
  | modules => [.word "import"]
  | names | future => [.word "from"]
  | list | dotted _ | renamed | condition | operand => [.name]
  | items => [.sign ","]
  | tail _ | relative | dots | dotSeries => [.sign "."]
  | star => [.sign "*"]
  | choice _ => [.word "if"]
  | function _ => [.word "def"]
  | record _ => [.word "class"]
  | parameters => [.sign "("]

/-- The tokens that follow a dotted name. -/
def afterDotted : Role → List Token
  | .source => [.word "import"]
  | .plain => [.sign ",", .newline]
  | .renamed => [.word "as"]

/-- The tokens that follow a piece. -/
def follow : Piece → List Token
  | script => [.finish]
  | statements b | statement b | line b | choice b | function b | record b | block b =>
    (cond b .dedent .finish) :: starters
  | modules | names | future | list | star => [.newline]
  | items | renamed => [.sign ",", .newline]
  | dotted r => afterDotted r
  | tail r => .sign "." :: afterDotted r
  | relative => [.word "import"]
  | dots => [.word "import", .name]
  | dotSeries => [.sign ".", .word "import", .name]
  | condition | operand | parameters => [.sign ":"]

/-- A piece that ends with another one is above it. -/
def rank : Piece → Nat
  | script => 9
  | statements _ => 8
  | statement _ => 7
  | choice _ | function _ | record _ => 6
  | line _ | block _ | names | modules | future => 5
  | list => 4
  | items | relative | condition => 3
  | dots | renamed | dotted _ | star | operand => 2
  | tail _ | dotSeries | parameters => 1

end Piece

/-- The sketch of import scripts. -/
def sketch : Sketch Piece where
  symbol := Piece.symbol
  forms := Piece.forms
  firsts := Piece.firsts
  follow := Piece.follow
  rank := Piece.rank

/-- The forms of every piece suit what the sketch says of their parts. -/
theorem isCoherent_sketch (p : Piece) : sketch.isCoherent p = true := by
  rcases p with _ | (_ | _) | (_ | _) | (_ | _) | _ | _ | _ | _ | _ | (_ | _ | _) | (_ | _ | _) |
    _ | _ | _ | _ | _ | (_ | _) | (_ | _) | (_ | _) | _ | _ | _ | (_ | _) <;> decide +kernel

private theorem check_sketch : Computed.check grammar sketch .script = true := by
  decide +kernel

/-- The automaton goes through all pieces of an import script. -/
theorem suits_sketch : ∃ reads, sketch.Suits automaton .script reads :=
  Sketch.suits_of_check check_sketch

end ScriptDeps.ImportScript
