import ScriptDeps.Source.Grammar

/-!
# Numbered grammars

Tokens and phrases get numbers, so that a set of tokens is a number too. A series becomes a phrase
of its own that grows to the right: it is its body, or itself and its body.
-/

namespace ScriptDeps.Source.Automaton

/-- A set of tokens: a number with one bit for each. -/
abbrev TokenSet := Nat

/-- A set of one token. -/
def TokenSet.single (token : Nat) : TokenSet := 1 <<< token

/-- A part of a phrase, by its number. -/
inductive Part where
  /-- A token. -/
  | token (number : Nat)
  /-- A phrase or series. -/
  | phrase (number : Nat)
  deriving DecidableEq, Repr, Ord

/-- One way to make a phrase. -/
structure Production where
  /-- The phrase. -/
  left : Nat
  /-- The parts it is made of. -/
  parts : List Part
  /-- How strongly it binds. -/
  level : Int
  /-- How it groups with what binds as strongly. -/
  side : Option Side
  /-- How much a reading gains by it. -/
  weight : Int
  deriving DecidableEq, Repr

/-- A grammar in numbers. -/
structure Numbering where
  /-- The tokens, in the order of their numbers. -/
  tokens : List Token
  /-- The phrases, then the series. -/
  phrases : List Symbol
  /-- The productions of each phrase. -/
  productions : Array (List Production)

/-- The tokens that come from the layout of a text or from its end. -/
def layoutTokens : List Token :=
  [.newline, .indent, .dedent, .openQuote, .fragment, .brace, .closeQuote, .finish]

/-- The productions of a phrase or series, as lists of symbols with what binds them. -/
def formsOf (g : Grammar) : Symbol → List (List Symbol × Form)
  | .token _ => []
  | .phrase p => ((g.lookup p).getD []).flatMap fun f => f.rule.expand.map fun parts => (parts, f)
  | .series body => body.expand.flatMap fun parts =>
      [(parts, body), (.series body :: parts, body)]

/-- A grammar with numbers for its tokens and phrases. -/
def Numbering.ofGrammar (g : Grammar) : Numbering :=
  let rules := g.flatMap fun (_, forms) => forms.map (·.rule)
  let tokens := (layoutTokens ++ rules.flatMap Rule.tokens).eraseDups
  let series := (rules.flatMap Rule.bodies).eraseDups.map Symbol.series
  let phrases := (g.map fun (p, _) => Symbol.phrase p) ++ series
  let part : Symbol → Part
    | .token t => .token (tokens.idxOf t)
    | p => .phrase (phrases.idxOf p)
  let productions := phrases.zipIdx.map fun (p, left) =>
    ((formsOf g p).map fun (parts, f) =>
      (⟨left, parts.map part, f.level, f.side, f.weight⟩ : Production)).eraseDups
  ⟨tokens, phrases, productions.toArray⟩

namespace Numbering

/-- The number of a token. -/
def tokenNumber (n : Numbering) (t : Token) : Nat := n.tokens.idxOf t

/-- The number of a phrase. -/
def phraseNumber (n : Numbering) (p : Phrase) : Nat := n.phrases.idxOf (.phrase p)

/-- The tokens of a set. -/
def tokensIn (n : Numbering) (set : TokenSet) : List Token :=
  n.tokens.zipIdx.filterMap fun (t, i) => if set.testBit i then some t else none

end Numbering

end ScriptDeps.Source.Automaton
