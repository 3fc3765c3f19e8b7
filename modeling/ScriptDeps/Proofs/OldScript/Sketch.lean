import ScriptDeps.Proofs.Source.Sketch
import ScriptDeps.Source.Script

/-!
# The grammar of a script of the older language

Imports and exec statements, also in the block of a condition, need only a few phrases of the
grammar. Main statement: `suits_sketch`, that the automaton goes through all of them without a
choice.
-/

namespace ScriptDeps.OldScript

open Source Automaton

/-- A phrase or series of the script in its surroundings. -/
inductive Piece where
  /-- The whole script. -/
  | script
  /-- Statements, in the block or not. -/
  | statements (inner : Bool)
  /-- A statement, in the block or not. -/
  | statement (inner : Bool)
  /-- A line, in the block or not. -/
  | line (inner : Bool)
  /-- An import of modules. -/
  | modules
  /-- What is imported. -/
  | list
  /-- A dotted name. -/
  | dotted
  /-- An exec statement. -/
  | exec
  /-- The block with its condition. -/
  | choice
  /-- A condition. -/
  | condition
  /-- A condition as an operand. -/
  | operand
  /-- The inside of the block. -/
  | block
  deriving DecidableEq

namespace Piece

/-- The phrase or series that a piece is. -/
def symbol : Piece → Symbol
  | script => .phrase .script
  | statements _ => .series (.phrase .statement)
  | statement _ => .phrase .statement
  | line _ => .phrase .line
  | modules => .phrase .importStatement
  | list => .phrase .importList
  | dotted => .phrase .dottedName
  | exec => .phrase .execStatement
  | choice => .phrase .ifStatement
  | condition => .phrase .expression
  | operand => .phrase .primary
  | block => .phrase .block

/-- The forms of a piece. -/
def forms : Piece → List (List (Element Piece))
  | script => [[.piece (statements false)]]
  | statements b => [[.piece (statement b)], [.piece (statements b), .piece (statement b)]]
  | statement true => [[.piece (line true)]]
  | statement false => [[.piece (line false)], [.piece choice]]
  | line _ => [[.piece modules, .token .newline], [.piece exec, .token .newline]]
  | modules => [[.token (.word "import"), .piece list]]
  | list => [[.piece dotted]]
  | dotted => [[.token .name]]
  | exec => [[.token (.word "exec"), .token .name]]
  | choice =>
    [[.token (.word "if"), .piece condition, .token (.sign ":"), .token .indent, .piece block]]
  | condition => [[.piece operand]]
  | operand => [[.token .name]]
  | block => [[.piece (statements true), .token .dedent]]

/-- The words that a line begins with. -/
def openers : List Token := [.word "import", .word "exec"]

/-- The words that a statement begins with, in the block or not. -/
def starters : Bool → List Token
  | true => openers
  | false => .word "if" :: openers

/-- The tokens that a piece begins with. -/
def firsts : Piece → List Token
  | script => starters false
  | statements b | statement b => starters b
  | block | line _ => openers
  | modules => [.word "import"]
  | list | dotted | condition | operand => [.name]
  | exec => [.word "exec"]
  | choice => [.word "if"]

/-- The tokens that follow a piece. -/
def follow : Piece → List Token
  | script => [.finish]
  | statements b | statement b | line b => cond b .dedent .finish :: starters b
  | choice | block => .finish :: starters false
  | modules | exec | list | dotted => [.newline]
  | condition | operand => [.sign ":"]

/-- A piece that ends with another one is above it. -/
def rank : Piece → Nat
  | script => 7
  | statements _ => 6
  | statement _ => 5
  | choice => 4
  | line _ | block | modules | exec => 3
  | list | condition => 2
  | dotted | operand => 1

end Piece

/-- The sketch of the script. -/
def sketch : Sketch Piece where
  symbol := Piece.symbol
  forms := Piece.forms
  firsts := Piece.firsts
  follow := Piece.follow
  rank := Piece.rank

/-- The forms of every piece suit what the sketch says of their parts. -/
theorem isCoherent_sketch (p : Piece) : sketch.isCoherent p = true := by
  rcases p with _ | (_ | _) | (_ | _) | (_ | _) | _ | _ | _ | _ | _ | _ | _ | _ <;> decide +kernel

private theorem check_sketch : Computed.check grammar sketch .script = true := by
  decide +kernel

/-- The automaton goes through all pieces of the script. -/
theorem suits_sketch : ∃ reads, sketch.Suits automaton .script reads :=
  Sketch.suits_of_check check_sketch

end ScriptDeps.OldScript
