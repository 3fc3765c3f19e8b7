import ScriptDeps.Source.Automaton.Item
import ScriptDeps.Source.Automaton.Lead
import ScriptDeps.Source.Expected

/-!
# The automaton of the grammar

A state is known by its items of which something has been read; the items that can begin where a
phrase is expected follow from them. `Automaton.after` gives the state behind a token or phrase.
`Automaton.step` says what a reading does at a token: it closes phrases all of whose parts have been
read, or takes the token. Where both are possible the strength of the forms decides, then the
direction in which they group; where neither does, both stay, and the reading goes on as two.
-/

namespace ScriptDeps.Source

open Automaton

/-- What is known about a grammar to read scripts with it. -/
structure Automaton where
  /-- The grammar. -/
  numbering : Numbering
  /-- The tokens that can begin each phrase. -/
  firsts : Array TokenSet
  /-- The leads of all phrases in each phrase. -/
  leads : Array (Array Lead)
  /-- The items that begin with each token, behind it. -/
  behindTokens : Array (List Item)
  /-- The items that begin with each phrase, behind it. -/
  behindPhrases : Array (List Item)

namespace Automaton

/-- The items that begin with each of some parts, behind it and in order. -/
def beginnings (n : Numbering) (size : Nat) (number : Part → Option Nat) : Array (List Item) :=
  n.productions.foldl (fun found ps => ps.foldl (fun found p =>
    match p.parts.head?.bind number with
    | some i => found.modify i (Item.ofProduction p).next.insert
    | none => found) found) (Array.replicate size [])

/-- The automaton of a grammar. -/
def ofGrammar (g : Grammar) : Automaton :=
  let n := Numbering.ofGrammar g
  let firsts := n.firsts
  { numbering := n
    firsts
    leads := (Array.range n.productions.size).map (n.leads firsts)
    behindTokens := beginnings n n.tokens.length fun
      | .token t => some t
      | .phrase _ => none
    behindPhrases := beginnings n n.productions.size fun
      | .token _ => none
      | .phrase p => some p }

/-- The item of a script of which nothing has been read. -/
def wholeItem (a : Automaton) : Item :=
  ⟨0, a.numbering.productions.size, 0, 0, none, [.phrase (a.numbering.phraseNumber .script)]⟩

/-- The item of a script without statements. -/
def emptyItem (a : Automaton) : Item :=
  ⟨0, a.numbering.phraseNumber .script, 0, 0, none, []⟩

/-- The state before anything has been read. -/
def start (a : Automaton) : State :=
  let follow := TokenSet.single (a.numbering.tokenNumber .finish)
  [(a.emptyItem, follow), (a.wholeItem, follow)]

/-- The tokens that an item with some tokens behind it lets come next. -/
def tokensOf (a : Automaton) (i : Item) (follow : TokenSet) : TokenSet :=
  i.rest.head?.elim follow (·.firsts a.firsts)

/-- The tokens that may come next in a state. -/
def tokens (a : Automaton) (s : State) : TokenSet :=
  s.foldl (fun set (i, follow) => set ||| a.tokensOf i follow) 0

/-- An item of a state is of a phrase and satisfies a test. -/
def hasItem (a : Automaton) (s : State) (phrase : Phrase) (test : Item → Bool) : Bool :=
  let number := a.numbering.phraseNumber phrase
  s.any fun (i, _) => i.left = number && test i

/-- Words that go on with a statement and so are no names, behind a word that may be a name itself
or behind the comma that may end a list. -/
def reserved (a : Automaton) (s : State) (e : Expected) : List String :=
  if a.hasItem s .awaitExpression (·.taken = 1) then
    if e.newline then if e.signs.contains "+=" then [] else ["from"]
    else if !e.bracket then ["else"]
    else if a.hasItem s .listSplatTarget fun _ => true then ["for"]
    else []
  else if e.newline ∧ a.hasItem s .expressionList (·.rest.isEmpty) then ["from"]
  else []

/-- What may come next in a state. -/
def expected (a : Automaton) (s : State) : Expected :=
  let e := Expected.ofTokens (a.numbering.tokensIn (a.tokens s))
  { e with reserved := a.reserved s e }

/-- Note that some tokens may follow a phrase. -/
def addFollow (phrase : Nat) (follow : TokenSet) :
    List (Nat × TokenSet) → List (Nat × TokenSet)
  | [] => [(phrase, follow)]
  | (p, f) :: rest =>
    if p = phrase then (p, f ||| follow) :: rest else (p, f) :: addFollow phrase follow rest

/-- The phrases that are expected in a state, each with the tokens that may follow it. -/
def phrasesIn (a : Automaton) (s : State) : List (Nat × TokenSet) :=
  s.foldl (fun found (i, follow) =>
    match i.rest with
    | .phrase p :: rest => addFollow p (rest.head?.elim follow (·.firsts a.firsts)) found
    | _ => found) []

/-- The tokens that may follow a phrase that begins where some phrases are expected. -/
def followOf (a : Automaton) (phrases : List (Nat × TokenSet)) (phrase : Nat) : TokenSet :=
  phrases.foldl (fun set (p, follow) =>
    set ||| (((a.leads.getD p #[]).getD phrase default).before follow)) 0

/-- The items that begin with a part, behind it. -/
def behind (a : Automaton) : Part → List Item
  | .token t => a.behindTokens.getD t []
  | .phrase p => a.behindPhrases.getD p []

/-- The state behind a token or phrase. -/
def after (a : Automaton) (s : State) (x : Part) : State :=
  let phrases := a.phrasesIn s
  let begun := (a.behind x).filterMap fun i =>
    let follow := a.followOf phrases i.left
    if follow = 0 then none else some (i, follow)
  begun ++ s.filterMap fun (i, follow) => if i.expects x then some (i.next, follow) else none

/-- What a reading does at a token. -/
structure Step where
  /-- The items whose phrases are closed. -/
  closes : List Item
  /-- The token is taken. -/
  takes : Bool
  deriving DecidableEq, Repr

/-- What is done at a token that finished items allow and other items take: the strongest forms win,
then the direction of the finished ones decides. -/
def resolve (finished takers : List Item) : Step :=
  let top := finished.foldl (fun top i => max top i.level) ((finished.map (·.level)).headD 0)
  let strongest := finished.filter (·.level = top)
  if finished.isEmpty then ⟨[], !takers.isEmpty⟩
  else if takers.isEmpty then ⟨strongest, false⟩
  else if takers.any (·.level > top) then ⟨[], true⟩
  else if takers.any (·.level < top) then ⟨strongest, false⟩
  else if strongest.all (·.side = some .left) then ⟨strongest, false⟩
  else if strongest.all (·.side = some .right) then ⟨[], true⟩
  else ⟨strongest, true⟩

/-- What a reading does in a state at a token. -/
def step (a : Automaton) (s : State) (token : Nat) : Step :=
  let (finished, others) := s.partition fun (i, _) => i.rest.isEmpty
  let allowing := fun (i, follow) => (a.tokensOf i follow).testBit token
  resolve ((finished.filter allowing).map (·.1)) ((others.filter allowing).map (·.1))

end Automaton

end ScriptDeps.Source
