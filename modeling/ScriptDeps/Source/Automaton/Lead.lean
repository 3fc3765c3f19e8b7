import ScriptDeps.Source.Automaton.Numbering

/-!
# What a phrase begins with

For each phrase the tokens are found that can begin it, and for each phrase that may stand at the
beginning of another one the tokens that may follow it there. No phrase is empty.
-/

namespace ScriptDeps.Source.Automaton

/-- The tokens that can begin a part, given those that can begin each phrase. -/
def Part.firsts (firsts : Array TokenSet) : Part → TokenSet
  | token t => .single t
  | phrase p => firsts.getD p 0

namespace Numbering

/-- The tokens that are found to begin each phrase when one more step is looked at. -/
def widen (n : Numbering) (firsts : Array TokenSet) : Array TokenSet :=
  n.productions.map fun ps => ps.foldl (fun set p =>
    set ||| (p.parts.head?.elim 0 (·.firsts firsts))) 0

/-- Look at more steps until nothing new is found, at most a number of times. -/
def settleFirsts (n : Numbering) : Nat → Array TokenSet → Array TokenSet
  | 0, firsts => firsts
  | fuel + 1, firsts =>
    let wider := n.widen firsts
    if wider = firsts then firsts else n.settleFirsts fuel wider

/-- The tokens that can begin each phrase. -/
def firsts (n : Numbering) : Array TokenSet :=
  n.settleFirsts (n.productions.size + 1) (n.productions.map fun _ => 0)

end Numbering

/-- What may follow a phrase that stands at the beginning of another one; nothing if it cannot
stand there. -/
structure Lead where
  /-- The tokens that follow it inside the other phrase. -/
  follow : TokenSet
  /-- What follows the other phrase may follow it too. -/
  inherits : Bool
  deriving DecidableEq, Repr, Inhabited

namespace Lead

/-- What two looks at a phrase tell. -/
def join (a b : Lead) : Lead := ⟨a.follow ||| b.follow, a.inherits || b.inherits⟩

/-- The tokens that may follow where some may follow the other phrase. -/
def before (l : Lead) (follow : TokenSet) : TokenSet :=
  if l.inherits then l.follow ||| follow else l.follow

end Lead

namespace Numbering

/-- The phrases that stand first in a phrase with some lead, each with its own lead. -/
def leadsInto (n : Numbering) (firsts : Array TokenSet) (phrase : Nat) (lead : Lead) :
    List (Nat × Lead) :=
  (n.productions.getD phrase []).filterMap fun p =>
    match p.parts with
    | .phrase q :: [] => some (q, lead)
    | .phrase q :: part :: _ => some (q, ⟨part.firsts firsts, false⟩)
    | _ => none

/-- Note pending leads and look into their phrases where they tell something new, at most a number
of times. -/
def settleLeads (n : Numbering) (firsts : Array TokenSet) :
    Nat → List (Nat × Lead) → Array Lead → Array Lead
  | 0, _, leads => leads
  | _, [], leads => leads
  | fuel + 1, (phrase, lead) :: pending, leads =>
    let known := leads.getD phrase default
    let joined := known.join lead
    if joined = known then n.settleLeads firsts fuel pending leads
    else
      n.settleLeads firsts fuel (n.leadsInto firsts phrase lead ++ pending)
        (leads.setIfInBounds phrase joined)

/-- A limit on the leads that are noted for one phrase: each new one adds a token to a phrase and
brings in the productions of the phrase. -/
def leadLimit (n : Numbering) : Nat :=
  (n.tokens.length + 2) * (n.productions.foldl (fun count ps => count + ps.length + 1) 1)

/-- The leads of all phrases in a phrase, itself among them. -/
def leads (n : Numbering) (firsts : Array TokenSet) (phrase : Nat) : Array Lead :=
  n.settleLeads firsts n.leadLimit [(phrase, ⟨0, true⟩)] (n.productions.map fun _ => default)

end Numbering

end ScriptDeps.Source.Automaton
