import ScriptDeps.Source.Reading

/-!
# Progress through a script

The versions of a script that are being read go on side by side. At a token a version closes
phrases, each of which gives a version of its own, then takes the token; the versions are taken in
turn, so that all stand near the same point. Versions that come to the same place in the same state
become one, and no more than a few are kept. Main definition: `Progress.finish?` gives the tree of
the heaviest reading of a whole script.
-/

namespace ScriptDeps.Source

/-- How far a script has been read. -/
structure Progress where
  /-- The versions. -/
  versions : List Version
  /-- The heaviest reading of the whole script so far, with its weight. -/
  finished : Option (Int × Tree)

namespace Progress

/-- Nothing has been read. -/
def start (source : List Char) : Progress := ⟨[.start source], none⟩

/-- The number of versions beyond which none is begun. -/
def mostBegun : Nat := 10

/-- The number of versions that are kept. -/
def mostKept : Nat := 6

/-- Change one version. -/
def modify (i : Nat) (change : Version → Version) (p : Progress) : Progress :=
  { p with versions := p.versions.modify i change }

/-- Give one version a status. -/
def mark (i : Nat) (status : Status) (p : Progress) : Progress := p.modify i ({ · with status })

/-- Add a version that comes from version `i`: it becomes one with another version that it meets,
or else the last one if there are not too many. -/
def add (a : Automaton) (i : Nat) (p : Progress) (v : Version) : Progress :=
  match p.versions.zipIdx.find? fun (w, j) => j ≠ i ∧ w.meets a v with
  | some (_, j) => p.modify j (·.join v)
  | none =>
    if mostBegun < p.versions.length then p else { p with versions := p.versions ++ [v] }

/-- Close the phrases of some items in version `i`. Also tell which of the versions that are new is
the first that the last item gave. -/
def close (a : Automaton) (i : Nat) (v : Version) (items : List Automaton.Item) (p : Progress) :
    Progress × Option Nat :=
  items.foldl (fun (p, last) item =>
    let grown := v.readings.foldl (fun p r => p.add a i { v with readings := [r.close a item] }) p
    (grown, if p.versions.length < grown.versions.length then some p.versions.length else last))
    (p, none)

/-- Version `j` goes on in the place of version `i`, which stands before it. -/
def replace (i j : Nat) (p : Progress) : Progress :=
  match p.versions[j]? with
  | some v => { p with versions := (p.versions.set i v).eraseIdx j }
  | none => p

/-- The tree of a reading of a whole script, whose last gap is given. -/
def treeOf (gap : List Char) (r : Reading) : Tree :=
  .node .script ((Frame.treesOf r.frames).reverse ++ [.leaf gap []])

/-- A whole script has been read in some ways. The heaviest one stays, of two that weigh the same
the first. -/
def complete (v : Version) (l : Lexeme) (p : Progress) : Progress :=
  { p with finished := v.readings.foldl (fun best r =>
      if best.all (·.1 < r.weight) then some (r.weight, treeOf (v.place.gap ++ l.gap) r)
      else best) p.finished }

/-- What version `i` does at a lexeme: it closes phrases until it takes the token of the lexeme, or
cannot go on; a word that does not fit may still be a name. The number of rounds is limited. -/
def settle (a : Automaton) (i : Nat) : Nat → Lexeme → Progress → Progress
  | 0, _, p => p.mark i .stuck
  | fuel + 1, l, p =>
    match p.versions[i]? with
    | none => p
    | some v =>
      let state := v.state a
      let step := a.step state (a.numbering.tokenNumber l.token)
      if step.closes.any (·.left = a.wholeItem.left) then (p.complete v l).mark i .done
      else
        let (p, last) := p.close a i v step.closes
        if step.takes then p.modify i fun v => v.take a l
        else
          match last, l.asName? with
          | some j, _ => settle a i fuel l (p.replace i j)
          | none, some l =>
            if !step.closes.isEmpty then p.mark i .done
            else if (a.expected state).name then settle a i fuel l p
            else p.mark i .stuck
          | none, none => p.mark i (if step.closes.isEmpty then .stuck else .done)

/-- A limit on the rounds at one lexeme: where a phrase is closed that has one part, it is part of a
larger one, and there are fewer than 256 phrases. -/
def roundLimit (v : Version) : Nat :=
  256 * (v.readings.foldl (fun most r => max most r.frames.length) 0 + 2)

/-- Read one lexeme in version `i`. -/
def advance (a : Automaton) (i : Nat) (p : Progress) : Progress :=
  match p.versions[i]? with
  | none => p
  | some v =>
    match v.place.lexeme? (a.expected (v.state a)) with
    | none => p.mark i .stuck
    | some l =>
      match l.token with
      | .comment | .joint => p.modify i fun v => { v with place := v.place.skip l }
      | _ => p.settle a i (roundLimit v) l

/-- Read on in all versions from `i` on, each until it stands behind all that came before it or,
where it is not the first, beside one. No answer means that the reading never ends. -/
def sweep (i furthest : Nat) (p : Progress) (a : Automaton) : Option (Progress × Nat) :=
  match p.versions[i]? with
  | none => some (p, furthest)
  | some v =>
    if v.status = .active then
      let p := p.advance a i
      match p.versions[i]? with
      | none => some (p, furthest)
      | some v =>
        let offset := v.place.offset
        -- The automaton is given by name, since it is the same in every round.
        if furthest < offset ∨ i ≠ 0 ∧ offset = furthest then (sweep (a := a)) (i + 1) offset p
        else (sweep (a := a)) i furthest p
    else (sweep (a := a)) (i + 1) furthest p
partial_fixpoint

/-- Keep the best versions that go on or are stuck. -/
def prune (a : Automaton) (p : Progress) : Progress :=
  let ranked := (p.versions.filter (·.status ≠ .done)).foldl (fun ranked v => v.rank a ranked) []
  { p with versions := ranked.take mostKept }

/-- Read on until no version goes on. -/
def finish? (furthest : Nat) (p : Progress) (a : Automaton) : Option Tree := do
  let (p, furthest) ← p.sweep 0 furthest a
  let p := p.prune a
  if p.versions.all (·.status = .stuck) then p.finished.map (·.2) else (finish? (a := a)) furthest p
partial_fixpoint

end Progress

end ScriptDeps.Source
