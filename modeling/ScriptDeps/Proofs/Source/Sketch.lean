import ScriptDeps.Proofs.Source.Computed.States
import ScriptDeps.Proofs.Source.Expecting

/-!
# Sketches of a grammar

A sketch is a small grammar inside a grammar: some phrases and series, each of them in certain
surroundings, with some of their forms. `Sketch.Reads` says that the states in which the pieces of a
sketch are to be read suit the sketch: from each of them the automaton takes what the sketch says,
closes what the sketch says, and never has a choice. Main statement: `Sketch.suits_of_check`, that
this can be found by evaluation.
-/

namespace ScriptDeps.Source

open Automaton

/-- A part of a form of a sketch. -/
inductive Element (P : Type) where
  /-- A token. -/
  | token (t : Token)
  /-- A phrase or series of the sketch. -/
  | piece (p : P)

/-- A small grammar inside a grammar. -/
structure Sketch (P : Type) where
  /-- The phrase or series that a piece is. -/
  symbol : P → Symbol
  /-- The forms of a piece. -/
  forms : P → List (List (Element P))
  /-- The tokens that a piece begins with. -/
  firsts : P → List Token
  /-- The tokens that follow a piece. -/
  follow : P → List Token
  /-- A piece that ends with another one is above it. -/
  rank : P → Nat

variable (a : Automaton)

/-- A token is expected in a state, and no rival of it. -/
structure Admits (s : State) (t : Token) : Prop where
  /-- The token can be expected. -/
  not_silent : t ∉ silentTokens
  /-- The token is one of the grammar. -/
  mem_tokens : t ∈ a.numbering.tokens
  /-- The token is expected. -/
  holds : (a.tokens s).testBit (a.numbering.tokenNumber t) = true
  /-- No rival is expected. -/
  alone : ∀ u ∈ rivals t, (a.tokens s).testBit (a.numbering.tokenNumber u) = false

/-- The item of a finished phrase or series: all its parts have been read, and nothing is gained. -/
structure Finishes (symbol : Symbol) (taken : Nat) (i : Item) : Prop where
  /-- The number of parts. -/
  taken_eq : i.taken = taken
  /-- The phrase or series. -/
  left_eq : a.numbering.phrases[i.left]? = some symbol
  /-- Its number. -/
  partOf_eq : a.numbering.partOf symbol = .phrase i.left
  /-- The whole script is no phrase. -/
  left_ne : i.left ≠ a.wholeItem.left
  /-- What is gained. -/
  weight_eq : i.weight = 0

namespace Sketch

variable {P : Type} (S : Sketch P)

/-- The tokens that a part begins with. -/
def firstsOf : Element P → List Token
  | .token t => [t]
  | .piece p => S.firsts p

/-- The tokens that come next in a piece of which some parts are left. -/
def next (p : P) : List (Element P) → List Token
  | [] => S.follow p
  | x :: _ => S.firstsOf x

/-- The rest of a form of a piece: behind each piece in it comes what may follow, and the last one
is below the whole. -/
def suits (p : P) : List (Element P) → Bool
  | [] => true
  | .token _ :: rest => suits p rest
  | .piece q :: rest =>
    (S.next p rest).all (S.follow q).contains && (!rest.isEmpty || S.rank q < S.rank p) &&
      suits p rest

/-- The largest rank. -/
def mostRank : Nat := 500

/-- The forms of a piece suit what the sketch says of their parts. -/
def isCoherent (p : P) : Bool :=
  S.rank p ≤ mostRank && (S.forms p).all fun form =>
    !form.isEmpty && (S.next p form).all (S.firsts p).contains && S.suits p form

variable (reads : State → P → Prop)

/-- In a state in which some parts of a piece are left, the automaton goes through them. -/
def GoesOn (p : P) : Nat → State → List (Element P) → Prop
  | taken, s, [] => ∀ t ∈ S.follow p, ∃ i,
      a.step s (a.numbering.tokenNumber t) = ⟨[i], false⟩ ∧ Finishes a (S.symbol p) taken i
  | taken, s, .token t :: rest =>
      let s' := a.after s (.token (a.numbering.tokenNumber t))
      a.step s (a.numbering.tokenNumber t) = ⟨[], true⟩ ∧ (∀ u ∈ S.next p rest, Admits a s' u) ∧
        GoesOn p (taken + 1) s' rest
  | taken, s, .piece q :: rest =>
      reads s q ∧ GoesOn p (taken + 1) (a.after s (a.numbering.partOf (S.symbol q))) rest

/-- Wherever a piece is to be read the automaton goes through each of its forms. -/
def Reads : Prop := ∀ s p, reads s p → ∀ form ∈ S.forms p, S.GoesOn a reads p 0 s form

end Sketch

/-! ## The check -/

namespace Computed

variable (g : Grammar) {P : Type} [DecidableEq P] (S : Sketch P)

/-- The state before anything has been read. -/
def start : State :=
  let follow := Nat.shiftLeft 1 (tokenNumber g .finish)
  let script := (phrases g).idxOf (.phrase .script)
  [(⟨0, script, 0, 0, none, []⟩, follow),
   (⟨0, (productions g).length, 0, 0, none, [.phrase script]⟩, follow)]

/-- A token is expected in a state, and no rival of it. -/
def admits (s : State) (t : Token) : Bool :=
  !silentTokens.contains t && isKnown g (.token (tokenNumber g t)) &&
    holds (tokens g s) (tokenNumber g t) &&
    (rivals t).all fun u => !holds (tokens g s) (tokenNumber g u)

/-- A piece in a state is in a list. -/
def has (table : List (State × P)) (s : State) (p : P) : Bool :=
  table.any fun (s', p') => cond (decide (p' = p)) (decide (s' = s)) false

/-- The item is that of a finished piece. -/
def finishes (x : Part) (taken : Nat) (i : Item) : Bool :=
  Nat.beq i.taken taken && Part.phrase i.left == x && isKnown g x && i.weight == 0

/-- In a state in which some parts of a piece are left, the automaton goes through them, where the
pieces among them are in a list. -/
def goesOn (table : List (State × P)) (p : P) : Nat → State → List (Element P) → Bool
  | taken, s, [] => (S.follow p).all fun t =>
      match step g s (tokenNumber g t) with
      | ⟨[i], false⟩ => finishes g (part g (S.symbol p)) taken i
      | _ => false
  | taken, s, .token t :: rest =>
      (match step g s (tokenNumber g t) with
        | ⟨[], true⟩ => true
        | _ => false) &&
      (S.next p rest).all (admits g (after g s (.token (tokenNumber g t)))) &&
      goesOn table p (Nat.succ taken) (after g s (.token (tokenNumber g t))) rest
  | taken, s, .piece q :: rest =>
      has table s q && goesOn table p (Nat.succ taken) (after g s (part g (S.symbol q))) rest

/-- The pieces that are to be read in a form, each with its state. -/
def piecesIn : State → List (Element P) → List (State × P)
  | _, [] => []
  | s, .token t :: rest => piecesIn (after g s (.token (tokenNumber g t))) rest
  | s, .piece q :: rest => (s, q) :: piecesIn (after g s (part g (S.symbol q))) rest

/-- Find all pieces that are to be read, each with its state, at most a number of times. -/
def explore : Nat → List (State × P) → List (State × P) → List (State × P)
  | 0, _, table => table
  | _, [], table => table
  | fuel + 1, (s, p) :: pending, table =>
    cond (has table s p) (explore fuel pending table)
      (explore fuel ((S.forms p).flatMap (piecesIn g S s) ++ pending) ((s, p) :: table))

/-- The pieces that are to be read in a script, each with its state. -/
def tableOf (p : P) : List (State × P) := explore g S 10000 [(start g, p)] []

/-- The automaton goes through all forms of all pieces in a script. -/
def check (p : P) : Bool :=
  has (tableOf g S p) (start g) p && Nat.ble (Nat.succ (codes g).length) 127 &&
    (S.firsts p).all (admits g (start g)) &&
    (tableOf g S p).all fun (s, q) => (S.forms q).all (goesOn g S (tableOf g S p) q 0 s)

variable {g S}

private theorem start_eq : start g = (ofGrammar g).start := by
  have hnumber : tokenNumber g .finish = (Numbering.ofGrammar g).tokenNumber .finish :=
    tokenNumber_eq g _
  have hsize : (productions g).length = (Numbering.ofGrammar g).productions.size := by
    rw [productions_eq]
    rfl
  rw [start, hnumber, hsize]
  rfl

private theorem mem_of_has {table : List (State × P)} {s : State} {p : P}
    (h : has table s p = true) : (s, p) ∈ table := by
  rw [has, List.any_eq_true] at h
  obtain ⟨⟨s', p'⟩, hmem, h⟩ := h
  by_cases hp : p' = p
  · obtain rfl : s' = s := by simpa [hp] using h
    exact hp ▸ hmem
  · simp [hp] at h

private theorem finishes_of_finishes {symbol : Symbol} {taken : Nat} {i : Item}
    (h : finishes g (part g symbol) taken i = true) : Finishes (ofGrammar g) symbol taken i := by
  simp only [finishes, Bool.and_eq_true, beq_iff_eq] at h
  obtain ⟨⟨⟨htaken, hleft⟩, hknown⟩, hweight⟩ := h
  have hpart : (Numbering.ofGrammar g).partOf symbol = .phrase i.left := by
    rw [← part_eq, hleft]
  have hindex : (Numbering.ofGrammar g).phrases.idxOf symbol = i.left := by
    cases symbol with
    | token t => simp [Numbering.partOf] at hpart
    | phrase p => exact Part.phrase.inj hpart
    | series body => exact Part.phrase.inj hpart
  have hlt : i.left < (Numbering.ofGrammar g).phrases.length := by
    rw [← hleft, isKnown, Nat.ble_eq] at hknown
    rw [← size_productions, productions_eq]
    exact hknown
  have hsymbol : (Numbering.ofGrammar g).phrases[i.left]? = some symbol := by
    rw [← hindex] at hlt ⊢
    rw [List.getElem?_eq_getElem hlt, List.getElem_idxOf]
  have hwhole : (ofGrammar g).wholeItem.left = (Numbering.ofGrammar g).phrases.length :=
    size_productions g
  exact ⟨Nat.eq_of_beq_eq_true htaken, hsymbol, hpart, by omega, hweight⟩

variable (hg : (codes g).length < 127)
include hg

private theorem admits_of_admits {s : State} {t : Token} (h : admits g s t = true) :
    Admits (ofGrammar g) s t := by
  simp only [admits, tokens_eq hg, holds_eq, Bool.and_eq_true, List.all_eq_true,
    Bool.not_eq_true', isKnown, Nat.ble_eq] at h
  obtain ⟨⟨⟨hsilent, hknown⟩, hholds⟩, halone⟩ := h
  refine ⟨by simpa using hsilent, ?_, ?_, fun u hu => ?_⟩
  · have hcode : tokenCode t ∈ codes g := List.idxOf_lt_length_iff.1 hknown
    rw [codes_eq, List.mem_map] at hcode
    obtain ⟨u, hu, heq⟩ := hcode
    exact tokenCode_injective heq ▸ hu
  · rw [← hholds, tokenNumber_eq]
    rfl
  · rw [← halone u hu, tokenNumber_eq]
    rfl

private theorem goesOn_of_goesOn {table : List (State × P)} {p : P} {form : List (Element P)}
    {taken : Nat} {s : State} (h : goesOn g S table p taken s form = true) :
    S.GoesOn (ofGrammar g) (fun s q => (s, q) ∈ table) p taken s form := by
  induction form generalizing taken s with
  | nil =>
    intro t ht
    have hstep := List.all_eq_true.1 h t ht
    simp only [step_eq hg, tokenNumber_eq] at hstep
    split at hstep
    · rename_i i hi
      exact ⟨i, hi, finishes_of_finishes hstep⟩
    · simp at hstep
  | cons x form ih =>
    cases x with
    | token t =>
      simp only [goesOn, Bool.and_eq_true, List.all_eq_true, step_eq hg, after_eq hg,
        tokenNumber_eq] at h
      obtain ⟨⟨hstep, hadmits⟩, hrest⟩ := h
      refine ⟨?_, fun u hu => admits_of_admits hg (hadmits u hu), ih hrest⟩
      split at hstep
      · assumption
      · simp at hstep
    | piece q =>
      simp only [goesOn, Bool.and_eq_true, after_eq hg, part_eq] at h
      exact ⟨mem_of_has h.1, ih h.2⟩

end Computed

/-- The automaton goes through all forms of all pieces in a script that begins with some piece. -/
structure Sketch.Suits {P : Type} (S : Sketch P) (a : Automaton) (p : P)
    (reads : State → P → Prop) : Prop where
  /-- The automaton goes through them. -/
  goes : S.Reads a reads
  /-- The first piece is to be read at the start. -/
  start : reads a.start p
  /-- A token that it begins with can be taken at the start. -/
  firsts : ∀ t ∈ S.firsts p, Admits a a.start t

/-- Where the check succeeds, the automaton goes through all forms of all pieces in a script. -/
theorem Sketch.suits_of_check {g : Grammar} {P : Type} [DecidableEq P] {S : Sketch P} {p : P}
    (h : Computed.check g S p = true) : ∃ reads, S.Suits (ofGrammar g) p reads := by
  simp only [Computed.check, Bool.and_eq_true, List.all_eq_true, Nat.ble_eq] at h
  obtain ⟨⟨⟨hstart, hg⟩, hfirsts⟩, hall⟩ := h
  rw [Computed.start_eq] at hfirsts
  refine ⟨fun s q => (s, q) ∈ Computed.tableOf g S p, ?_, ?_, ?_⟩
  · intro s q hmem form hform
    exact Computed.goesOn_of_goesOn hg (hall (s, q) hmem form hform)
  · rw [← Computed.start_eq]
    exact Computed.mem_of_has hstart
  · exact fun t ht => Computed.admits_of_admits hg (hfirsts t ht)

end ScriptDeps.Source
