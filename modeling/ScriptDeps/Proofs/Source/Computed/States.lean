import ScriptDeps.Proofs.Source.Computed.Leads

/-!
# States by computation

What may come next in a state, the state behind a token or phrase, and what a reading does at a
token, all found from the computed tables. Main statements: `tokens_eq`, `after_eq` and `step_eq`.
-/

namespace ScriptDeps.Source.Computed

open Automaton

variable (g : Grammar)

/-- A part is of a known token or phrase. -/
def isKnown : Part → Bool
  | .token t => Nat.ble (Nat.succ t) (codes g).length
  | .phrase p => Nat.ble (Nat.succ p) (productions g).length

/-- Add the items of some productions that begin with a part, behind it. -/
def addBehind (x : Part) (found : List Item) (ps : List Production) : List Item :=
  ps.foldl (fun found p =>
    match p.parts with
    | y :: _ => if y = x then (Item.ofProduction p).next.insert found else found
    | [] => found) found

/-- The items that begin with a part, behind it. -/
def behind (x : Part) : List Item :=
  cond (isKnown g x) ((productions g).foldl (addBehind x) []) []

/-- The tokens that may follow a phrase that begins where some phrases are expected. -/
def followOf (phrases : List (Nat × TokenSet)) (phrase : Nat) : TokenSet :=
  phrases.foldl (fun set (p, follow) =>
    Nat.lor set (before (row (leads g (firsts g) p) phrase) follow)) 0

/-- The phrases that are expected in a state, each with the tokens that may follow it. -/
def phrasesIn (s : State) : List (Nat × TokenSet) :=
  s.foldl (fun found (i, follow) =>
    match i.rest with
    | .phrase p :: rest => addFollow p (headOr (firsts g) follow rest) found
    | _ => found) []

/-- The state behind a token or phrase. -/
def after (s : State) (x : Part) : State :=
  let phrases := phrasesIn g s
  let begun := (behind g x).filterMap fun i =>
    let follow := followOf g phrases i.left
    cond (Nat.beq follow 0) none (some (i, follow))
  begun ++ s.filterMap fun (i, follow) => if i.expects x then some (i.next, follow) else none

/-- A set holds a token. -/
def holds (set token : Nat) : Bool := Nat.beq (Nat.land 1 (Nat.shiftRight set token)) 1

/-- The tokens that may come next in a state. -/
def tokens (s : State) : TokenSet :=
  s.foldl (fun set (i, follow) => Nat.lor set (headOr (firsts g) follow i.rest)) 0

/-- What a reading does in a state at a token. -/
def step (s : State) (token : Nat) : Step :=
  let (finished, others) := s.partition fun (i, _) => i.rest.isEmpty
  let allowing := fun ((i, follow) : Item × TokenSet) =>
    holds (headOr (firsts g) follow i.rest) token
  resolve ((finished.filter allowing).map (·.1)) ((others.filter allowing).map (·.1))

section

variable {g}

/-! ## Items behind a part -/

private theorem getD_modify {found : Array (List Item)} {i k : Nat} (hk : k < found.size)
    (f : List Item → List Item) :
    (found.modify i f).getD k [] = if i = k then f (found.getD k []) else found.getD k [] := by
  rw [Array.getD_eq_getD_getElem?, Array.getElem?_modify, Array.getD_eq_getD_getElem?]
  split <;> simp [hk]

/-- Put the item of a production into the items of its first part. -/
private def note (number : Part → Option Nat) (found : Array (List Item)) (p : Production) :
    Array (List Item) :=
  match p.parts.head?.bind number with
  | some i => found.modify i (Item.ofProduction p).next.insert
  | none => found

private theorem size_note (number : Part → Option Nat) (found : Array (List Item))
    (p : Production) : (note number found p).size = found.size := by
  rw [note]
  split
  · exact Array.size_modify
  · rfl

private theorem size_foldl {α : Type} {f : Array (List Item) → α → Array (List Item)}
    (hf : ∀ found a, (f found a).size = found.size) (l : List α) (found : Array (List Item)) :
    (l.foldl f found).size = found.size :=
  List.foldlRecOn (motive := fun found' => found'.size = found.size) l f rfl fun _ h a _ =>
    (hf _ a).trans h

private theorem beginnings_eq (n : Numbering) (size : Nat) (number : Part → Option Nat) :
    beginnings n size number = n.productions.toList.foldl
      (fun found ps => ps.foldl (note number) found) (Array.replicate size []) := by
  rw [beginnings, ← Array.foldl_toList]
  rfl

private theorem size_beginnings (n : Numbering) (size : Nat) (number : Part → Option Nat) :
    (beginnings n size number).size = size := by
  rw [beginnings_eq, size_foldl fun found ps => size_foldl (size_note number) ps found,
    Array.size_replicate]

section

variable {x : Part} {number : Part → Option Nat} {k : Nat} (hx : ∀ y, number y = some k ↔ y = x)
include hx

/-- The items of one part that the productions of a phrase add. -/
private theorem getD_foldl_note (ps : List Production) {found : Array (List Item)}
    (hk : k < found.size) :
    (ps.foldl (note number) found).getD k [] = addBehind x (found.getD k []) ps := by
  induction ps generalizing found with
  | nil => rfl
  | cons p ps ih =>
    rw [List.foldl_cons, ih ((size_note ..).symm ▸ hk), addBehind, addBehind, List.foldl_cons, note]
    congr 1
    cases p.parts with
    | nil => rfl
    | cons y _ =>
      rw [List.head?_cons, Option.bind_some]
      by_cases hy : y = x
      · rw [(hx y).2 hy]
        simp [hy, getD_modify hk]
      · cases hnumber : number y with
        | none => simp [hy]
        | some i =>
          have hi : i ≠ k := fun hi => hy ((hx y).1 (hi ▸ hnumber))
          simp [hy, hi, getD_modify hk]

/-- The items of one part that all productions add. -/
private theorem getD_beginnings {n : Numbering} {size : Nat} (hk : k < size) :
    (beginnings n size number).getD k [] = n.productions.toList.foldl (addBehind x) [] := by
  have hfold (pss : List (List Production)) : ∀ found : Array (List Item), k < found.size →
      (pss.foldl (fun found ps => ps.foldl (note number) found) found).getD k [] =
        pss.foldl (addBehind x) (found.getD k []) := by
    induction pss with
    | nil => exact fun _ _ => rfl
    | cons ps pss ih =>
      intro found hfound
      rw [List.foldl_cons, List.foldl_cons,
        ih _ ((size_foldl (size_note number) ps found).symm ▸ hfound), getD_foldl_note hx ps hfound]
  rw [beginnings_eq, hfold _ _ (by simpa using hk)]
  simp [Array.getD_eq_getD_getElem?, hk]

private theorem behind_eq_getD {size : Nat} (hknown : isKnown g x = decide (k < size)) :
    behind g x = (beginnings (Numbering.ofGrammar g) size number).getD k [] := by
  rw [behind, hknown]
  by_cases hk : k < size
  · rw [getD_beginnings hx hk, productions_eq]
    simp [hk]
  · rw [Array.getD_eq_getD_getElem?, Array.getElem?_eq_none (by rw [size_beginnings]; omega)]
    simp [hk]

end

private theorem ble_succ (m n : Nat) : Nat.ble (Nat.succ m) n = decide (m < n) := by
  rw [Bool.eq_iff_iff, Nat.ble_eq, decide_eq_true_iff]
  exact Iff.rfl

/-- The items behind a part are those of the automaton. -/
theorem behind_eq (x : Part) : behind g x = (ofGrammar g).behind x := by
  cases x with
  | token t =>
    have hknown : isKnown g (.token t) = decide (t < (Numbering.ofGrammar g).tokens.length) := by
      rw [isKnown, ble_succ, codes_eq, List.length_map]
    exact behind_eq_getD (by rintro (_ | _) <;> simp) hknown
  | phrase p =>
    have hknown : isKnown g (.phrase p) =
        decide (p < (Numbering.ofGrammar g).productions.size) := by
      rw [isKnown, ble_succ, productions_eq]
      rfl
    exact behind_eq_getD (by rintro (_ | _) <;> simp) hknown

/-! ## Steps -/

/-- A set of tokens is a number whose bits say which tokens it has. -/
theorem holds_eq (set token : Nat) : holds set token = set.testBit token := by
  have hland : Nat.land 1 (Nat.shiftRight set token) = (set >>> token) % 2 :=
    Nat.one_and_eq_mod_two _
  rw [holds, hland, Nat.testBit, Nat.one_and_eq_mod_two]
  rcases Nat.mod_two_eq_zero_or_one (set >>> token) with h | h <;> rw [h] <;> rfl

variable (hg : (codes g).length < 127)
include hg

/-- The first tokens of some parts are found in the table. -/
theorem headOr_firsts (follow : Nat) (parts : List Part) :
    headOr (firsts g) follow parts = parts.head?.elim follow (·.firsts (ofGrammar g).firsts) :=
  (tells_firsts hg).headOr_eq follow parts

/-- What may come next in a state is what the automaton says. -/
theorem tokens_eq (s : State) : tokens g s = (ofGrammar g).tokens s := by
  simp only [tokens, headOr_firsts hg]
  rfl

/-- The phrases that are expected in a state are found by the tables. -/
theorem phrasesIn_eq (s : State) : phrasesIn g s = (ofGrammar g).phrasesIn s := by
  simp only [phrasesIn, headOr_firsts hg]
  rfl

private theorem before_row_leads (p q follow : Nat) :
    before (row (leads g (firsts g) p) q) follow =
      (((ofGrammar g).leads.getD p #[]).getD q default).before follow := by
  have hleads : (ofGrammar g).leads = (Array.range (Numbering.ofGrammar g).productions.size).map
      ((Numbering.ofGrammar g).leads (Numbering.ofGrammar g).firsts) := rfl
  have htells := tellsLeads_leads hg (tells_firsts hg) p
  by_cases hp : p < (productions g).length
  · have hget : (ofGrammar g).leads.getD p #[] =
        (Numbering.ofGrammar g).leads (Numbering.ofGrammar g).firsts p := by
      rw [hleads, productions_eq]
      simp [Array.getD_eq_getD_getElem?, hp]
    rw [hget, htells.row_eq, before_leadCode (htells.fits q)]
  · have hget : (ofGrammar g).leads.getD p #[] = #[] := by
      rw [hleads, productions_eq]
      simp [Array.getD_eq_getD_getElem?, hp]
    have hnone : (productions g)[p]? = none := List.getElem?_eq_none (by omega)
    have hrow : row (leads g (firsts g) p) q = 0 := by
      rw [leads]
      cases leadLimit g with
      | zero => exact row_zero q
      | succ k =>
        rw [settleLeads, hnone]
        cases k <;> exact row_zero q
    rw [hget, hrow]
    rfl

/-- What may follow a phrase in a state is found by the tables. -/
theorem followOf_eq (phrases : List (Nat × TokenSet)) (q : Nat) :
    followOf g phrases q = (ofGrammar g).followOf phrases q := by
  simp only [followOf, before_row_leads hg]
  rfl

/-- The state behind a part is that of the automaton. -/
theorem after_eq (s : State) (x : Part) : after g s x = (ofGrammar g).after s x := by
  have hcond (n : Nat) (i : Item) : cond (Nat.beq n 0) none (some (i, n)) =
      if n = 0 then none else some (i, n) := by
    cases n <;> rfl
  simp only [after, phrasesIn_eq hg, behind_eq, followOf_eq hg, hcond]
  rfl

/-- What a reading does is what the automaton says. -/
theorem step_eq (s : State) (token : Nat) : step g s token = (ofGrammar g).step s token := by
  simp only [step, holds_eq, headOr_firsts hg]
  rfl

end

end ScriptDeps.Source.Computed
