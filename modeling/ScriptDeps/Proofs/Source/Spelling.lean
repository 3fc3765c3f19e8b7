import ScriptDeps.Proofs.Source.Comments
import ScriptDeps.Proofs.Source.Sketch

/-!
# Reading what a sketch spells

A sketch spells lists of written tokens. Where a text is read as such a list, token by token, the
automaton goes through it as the sketch does. A reading is followed from its end: `Goes` says of a
reading and of the tokens that are left that they come to a goal, and each token taken and each
phrase closed in front of them keeps that. One goal is a certain tree; the text can also be left
before its last token, where something else is known of all readings. Main statements:
`Sketch.Spells.reaches`, and `Sketch.parse?_of_spells` for a text that is read to its end.
-/

namespace ScriptDeps.Source

open Automaton

/-! ## Written tokens -/

/-- A token as it is written: with what stands before it, and its text. -/
structure Stroke where
  /-- The token. -/
  token : Token
  /-- What stands before it. -/
  gap : List Char
  /-- Its text. -/
  text : List Char

/-- The tree of a written token, if it has a text. -/
def Stroke.trees (w : Stroke) : List Tree := if w.text.isEmpty then [] else [.leaf w.gap w.text]

/-- A written token has at most one tree. -/
theorem Stroke.reverse_trees (w : Stroke) : w.trees.reverse = w.trees := by
  rw [trees]
  split <;> rfl

/-- The characters of written tokens. -/
def charsOf (ws : List Stroke) : List Char := ws.flatMap fun w => w.gap ++ w.text

/-- The characters of a written token stand in front of the others. -/
theorem charsOf_cons (w : Stroke) (ws : List Stroke) :
    charsOf (w :: ws) = w.gap ++ w.text ++ charsOf ws :=
  rfl

/-- The characters of written tokens in a row stand in a row. -/
theorem charsOf_append (ws ws' : List Stroke) :
    charsOf (ws ++ ws') = charsOf ws ++ charsOf ws' := by
  simp [charsOf]

/-- The tree of a written token has its characters. -/
theorem Stroke.charsOfAll_trees {w : Stroke} (hgap : w.text = [] → w.gap = []) :
    Tree.charsOfAll w.trees = w.gap ++ w.text := by
  cases htext : w.text with
  | nil => simp [trees, htext, hgap htext, Tree.charsOfAll]
  | cons c t => simp [trees, htext, Tree.charsOfAll, Tree.chars]

/-- A lexeme is a written token. -/
structure Lexeme.IsOf (l : Lexeme) (w : Stroke) : Prop where
  /-- The token. -/
  token_eq : l.token = w.token
  /-- What stands before it. -/
  gap_eq : l.gap = w.gap
  /-- Its text. -/
  text_eq : l.text = w.text

/-- A text is read as written tokens, each where it can be taken, up to a point where it is left:
behind all of them, or in front of some with certain things open. -/
def ReadAs (leaves : Nesting → List Stroke → Prop) : Nesting → List Char → List Stroke → Prop
  | n, _, [] => leaves n []
  | n, s, w :: ws => leaves n (w :: ws) ∨ ∃ l : Lexeme, l.IsOf w ∧
      (∀ e : Expected, e.Takes w.token → Lexeme.first? e n s = some l) ∧
        ReadAs leaves l.nesting l.rest ws

/-- All tokens have been read. -/
def AllRead (_ : Nesting) (ws : List Stroke) : Prop := ws = []

variable {leaves : Nesting → List Stroke → Prop}

/-- A text is left where it stands. -/
theorem ReadAs.leave {n : Nesting} {s : List Char} {ws : List Stroke} (h : leaves n ws) :
    ReadAs leaves n s ws := by
  cases ws with
  | nil => exact h
  | cons w ws => exact .inl h

/-- A token is read in front of others. -/
theorem ReadAs.cons {n : Nesting} {s : List Char} {w : Stroke} {ws : List Stroke} (l : Lexeme)
    (hl : l.IsOf w) (hfirst : ∀ e : Expected, e.Takes w.token → Lexeme.first? e n s = some l)
    (h : ReadAs leaves l.nesting l.rest ws) : ReadAs leaves n s (w :: ws) :=
  .inr ⟨l, hl, hfirst, h⟩

namespace Sketch

variable {P : Type} (S : Sketch P)

/-- The trees that a piece gives of the trees of its parts. -/
def wrap (p : P) (ts : List Tree) : List Tree :=
  match S.symbol p with
  | .phrase q => if q.isTransparent then ts else [.node q ts]
  | _ => ts

/-- A form of a sketch spells written tokens with some trees. -/
inductive Spells : List (Element P) → List Stroke → List Tree → Prop
  | nil : Spells [] [] []
  | token {w : Stroke} {form : List (Element P)} {ws : List Stroke} {ts : List Tree}
      (hgap : w.text = [] → w.gap = []) (h : Spells form ws ts) :
      Spells (.token w.token :: form) (w :: ws) (w.trees ++ ts)
  | piece {p : P} {inner form : List (Element P)} {ws ws' : List Stroke} {ts ts' : List Tree}
      (hmem : inner ∈ S.forms p) (hinner : Spells inner ws ts) (h : Spells form ws' ts') :
      Spells (.piece p :: form) (ws ++ ws') (S.wrap p ts ++ ts')

/-- A piece is put into a node, or not, in either order of its trees. -/
theorem wrap_reverse (p : P) (ts : List Tree) :
    (S.wrap p ts).reverse = Reading.wrap (some (S.symbol p)) ts.reverse := by
  unfold wrap Reading.wrap
  cases S.symbol p with
  | phrase q =>
    simp only
    split <;> simp
  | _ => rfl

variable {S}

/-- A token with a text has a leaf. -/
theorem Spells.leaf {w : Stroke} {form : List (Element P)} {ws : List Stroke} {ts : List Tree}
    (hne : w.text ≠ []) (h : S.Spells form ws ts) :
    S.Spells (.token w.token :: form) (w :: ws) (.leaf w.gap w.text :: ts) := by
  have htrees : w.trees = [.leaf w.gap w.text] := by
    rw [Stroke.trees, if_neg (mt List.isEmpty_iff.1 hne)]
  have hall := Spells.token (fun hnil => absurd hnil hne) h
  rwa [htrees] at hall

/-- A layout mark has no leaf. -/
theorem Spells.mark {form : List (Element P)} {ws : List Stroke} {ts : List Tree} (token : Token)
    (h : S.Spells form ws ts) : S.Spells (.token token :: form) (⟨token, [], []⟩ :: ws) ts :=
  Spells.token (w := ⟨token, [], []⟩) (fun _ => rfl) h

/-- A piece alone. -/
theorem Spells.single {p : P} {inner : List (Element P)} {ws : List Stroke} {ts : List Tree}
    (hmem : inner ∈ S.forms p) (hinner : S.Spells inner ws ts) :
    S.Spells [.piece p] ws (S.wrap p ts) := by
  simpa using Spells.piece hmem hinner .nil

/-- What spells two forms spells them in a row. -/
theorem Spells.append {form form' : List (Element P)} {ws ws' : List Stroke} {ts ts' : List Tree}
    (h : S.Spells form ws ts) (h' : S.Spells form' ws' ts') :
    S.Spells (form ++ form') (ws ++ ws') (ts ++ ts') := by
  induction h with
  | nil => exact h'
  | token hgap _ ih =>
    rw [List.append_assoc]
    exact .token hgap ih
  | piece hmem hinner _ _ ih =>
    rw [List.append_assoc, List.append_assoc]
    exact .piece hmem hinner ih

/-- The trees of what is spelled keep its characters. -/
theorem Spells.charsOfAll_eq {form : List (Element P)} {ws : List Stroke} {ts : List Tree}
    (h : S.Spells form ws ts) : Tree.charsOfAll ts = charsOf ws := by
  induction h with
  | nil => rfl
  | token hgap _ ih => rw [Tree.charsOfAll_append, Stroke.charsOfAll_trees hgap, charsOf_cons, ih]
  | @piece p inner form ws ws' ts ts' _ _ _ ih ih' =>
    have hwrap : Tree.charsOfAll (S.wrap p ts) = Tree.charsOfAll ts := by
      unfold wrap
      split
      · split <;> simp [Tree.charsOfAll, Tree.chars]
      · rfl
    rw [Tree.charsOfAll_append, hwrap, charsOf_append, ih, ih']

/-- What is spelled begins with a token that the first part begins with. -/
theorem Spells.head (hS : ∀ p, S.isCoherent p = true) {x : Element P} {form : List (Element P)}
    {ws : List Stroke} {ts : List Tree} (h : S.Spells (x :: form) ws ts) :
    ∃ w ws', ws = w :: ws' ∧ w.token ∈ S.firstsOf x := by
  generalize hall : x :: form = all at h
  induction h generalizing x form with
  | nil => simp at hall
  | @token w form' ws ts _ _ _ =>
    obtain ⟨rfl, rfl⟩ := List.cons.inj hall
    exact ⟨w, ws, rfl, List.mem_singleton.2 rfl⟩
  | @piece p inner form' ws ws' ts ts' hmem _ _ ih _ =>
    obtain ⟨rfl, rfl⟩ := List.cons.inj hall
    have hcoherent := hS p
    simp only [isCoherent, Bool.and_eq_true, List.all_eq_true] at hcoherent
    obtain ⟨⟨hne, hfirsts⟩, -⟩ := hcoherent.2 inner hmem
    cases inner with
    | nil => simp at hne
    | cons y inner =>
      obtain ⟨w, ws₁, rfl, hw⟩ := ih rfl
      exact ⟨w, ws₁ ++ ws', rfl, List.contains_iff_mem.1 (hfirsts _ hw)⟩

/-- In front of a token that follows a piece, what is spelled of it begins with a token that comes
next in it. -/
theorem Spells.next (hS : ∀ p, S.isCoherent p = true) {form : List (Element P)} {ws : List Stroke}
    {ts : List Tree} (h : S.Spells form ws ts) {p : P} {w : Stroke} (hw : w.token ∈ S.follow p)
    (rest : List Stroke) :
    ∃ w' rest', ws ++ w :: rest = w' :: rest' ∧ w'.token ∈ S.next p form := by
  cases form with
  | nil =>
    cases h
    exact ⟨w, rest, rfl, hw⟩
  | cons x form =>
    obtain ⟨w', ws', rfl, hw'⟩ := h.head hS
    exact ⟨w', ws' ++ w :: rest, rfl, hw'⟩

end Sketch

/-! ## Readings that come to a goal -/

/-- Some more frames on top of a reading. -/
def Reading.above (r : Reading) (fs : List Frame) : Reading := { r with frames := fs ++ r.frames }

variable {a : Automaton} {G : Progress → Prop}

/-- A single version that goes on with one reading has come to a goal. -/
def Reaches (G : Progress → Prop) (r : Reading) (n : Nesting) (s : List Char) : Prop :=
  ∀ offset, G ⟨[⟨[r], ⟨offset, [], n, s⟩, .active⟩], none⟩

/-- A reading that settles at a lexeme, given enough rounds, comes to a goal. -/
def Settles (a : Automaton) (G : Progress → Prop) (rounds : Nat) (r : Reading) (l : Lexeme) :
    Prop :=
  ∀ fuel place, rounds ≤ fuel → place.gap = [] →
    G (Progress.settle a 0 fuel l ⟨[⟨[r], place, .active⟩], none⟩)

/-- A reading in front of some written tokens, of which the first has been found, comes to a
goal. -/
def Goes (a : Automaton) (leaves : Nesting → List Stroke → Prop) (G : Progress → Prop)
    (rounds : Nat) (r : Reading) : List Stroke → Prop
  | [] => False
  | w :: ws => ∀ l : Lexeme, l.IsOf w → ReadAs leaves l.nesting l.rest ws → Settles a G rounds r l

/-- What a reading of a text can come to: it is known one lexeme before, and wherever the text is
left. -/
structure IsGoal (a : Automaton) (leaves : Nesting → List Stroke → Prop) (G : Progress → Prop) :
    Prop where
  /-- What is known behind a lexeme is known in front of it. -/
  back : ∀ {v : Version}, v.status = .active → G (Progress.advance a 0 ⟨[v], none⟩) → G ⟨[v], none⟩
  /-- It is known of all readings where the text is left. -/
  left : ∀ {n w ws}, leaves n (w :: ws) → ∀ r s, Reaches G r n s

/-- Reading on from a single version gives what it gives one lexeme further. -/
theorem finish?_of_advance {v w : Version} {o : Option Tree} (hv : v.status = .active)
    (hw : w.status = .active)
    (hadvance : Progress.advance a 0 ⟨[v], none⟩ = ⟨[w], none⟩)
    (h : ∀ furthest, Progress.finish? furthest ⟨[w], none⟩ a = o) (furthest : Nat) :
    Progress.finish? furthest ⟨[v], none⟩ a = o := by
  by_cases hoffset : furthest < w.place.offset
  · rw [Progress.finish?_of_active hv hw hadvance hoffset]
    exact h _
  · have hsweep : Progress.sweep 0 furthest ⟨[v], none⟩ a =
        Progress.sweep 0 furthest ⟨[w], none⟩ a := by
      rw [Progress.sweep]
      simp [hv, hadvance, hoffset]
    have hw := h furthest
    rw [Progress.finish?] at hw ⊢
    rw [hsweep]
    exact hw

/-- Where a token that can be taken is found, a reading settles at it. -/
theorem reaches_of_settles (hG : IsGoal a leaves G) {rounds : Nat} {r : Reading} {n : Nesting}
    {s : List Char} {l : Lexeme} (hfirst : Lexeme.first? (a.expected (r.state a)) n s = some l)
    (hsilent : l.token ∉ silentTokens) (hrounds : rounds ≤ 512) (h : Settles a G rounds r l) :
    Reaches G r n s := by
  intro offset
  have hcomment : l.token ≠ .comment := fun heq => hsilent (by simp [heq, silentTokens])
  have hjoint : l.token ≠ .joint := fun heq => hsilent (by simp [heq, silentTokens])
  have hadvance : Progress.advance a 0 ⟨[⟨[r], ⟨offset, [], n, s⟩, .active⟩], none⟩ =
      Progress.settle a 0 (Progress.roundLimit ⟨[r], ⟨offset, [], n, s⟩, .active⟩) l
        ⟨[⟨[r], ⟨offset, [], n, s⟩, .active⟩], none⟩ :=
    Progress.advance_token hfirst hcomment hjoint
  have hlimit : rounds ≤ Progress.roundLimit ⟨[r], ⟨offset, [], n, s⟩, .active⟩ := by
    rw [Progress.roundLimit]
    omega
  refine hG.back rfl ?_
  rw [hadvance]
  exact h _ _ hlimit rfl

/-- A token is taken, and the reading goes on behind it. -/
theorem settles_take {r : Reading} {l : Lexeme} {w : Stroke} (hl : l.IsOf w)
    (hgap : w.text = [] → w.gap = [])
    (hstep : a.step (r.state a) (a.numbering.tokenNumber w.token) = ⟨[], true⟩)
    (h : Reaches G (r.above [⟨a.after (r.state a) (.token (a.numbering.tokenNumber w.token)),
      w.trees⟩]) l.nesting l.rest) :
    Settles a G 1 r l := by
  intro fuel place hfuel hplace
  obtain ⟨fuel, rfl⟩ := Nat.exists_eq_add_of_le' hfuel
  rw [← hl.token_eq] at hstep h
  rw [Progress.settle_take fuel hstep]
  have htake : Version.take a ⟨[r], place, .active⟩ l =
      ⟨[r.above [⟨a.after (r.state a) (.token (a.numbering.tokenNumber l.token)), w.trees⟩]],
        ⟨place.offset + l.gap.length + l.text.length, [], l.nesting, l.rest⟩, .active⟩ := by
    have htrees : w.trees = if l.text.isEmpty then [] else [.leaf l.gap l.text] := by
      rw [Stroke.trees, hl.gap_eq, hl.text_eq]
    have hempty : l.text = [] → l.gap = [] := by
      rw [hl.gap_eq, hl.text_eq]
      exact hgap
    rw [htrees]
    cases htext : l.text <;>
      simp_all [Version.take, Place.take, Reading.above, Version.state]
  rw [htake]
  exact h _

/-- The frame of a closed piece. -/
def closedFrame (a : Automaton) (symbol : Symbol) (r : Reading) (ts : List Tree) : Frame :=
  ⟨a.after (r.state a) (a.numbering.partOf symbol), Reading.wrap (some symbol) ts⟩

/-- A phrase is closed, and the reading goes on with it. -/
theorem settles_close {rounds : Nat} {symbol : Symbol} {base : Reading} {fs : List Frame}
    {l : Lexeme} {i : Item}
    (hstep : a.step ((base.above fs).state a) (a.numbering.tokenNumber l.token) = ⟨[i], false⟩)
    (hi : Finishes a symbol fs.length i)
    (h : Settles a G rounds (base.above [closedFrame a symbol base (Frame.treesOf fs)]) l) :
    Settles a G (rounds + 1) (base.above fs) l := by
  intro fuel place hfuel hplace
  obtain ⟨fuel, rfl⟩ := Nat.exists_eq_add_of_le' hfuel
  have hclose : (base.above fs).close a i =
      base.above [closedFrame a symbol base (Frame.treesOf fs)] := by
    simp [Reading.close, Reading.above, closedFrame, hi.taken_eq, hi.left_eq, hi.partOf_eq,
      hi.weight_eq]
  rw [← Nat.add_assoc, Progress.settle_close _ hstep hi.left_ne, hclose]
  exact h _ place (Nat.le_add_left _ _) hplace

/-! ## Readings of what a sketch spells -/

section

variable {P : Type} {S : Sketch P} {reads : State → P → Prop} (hG : IsGoal a leaves G)
  (htakes : ∀ {s t}, Admits a s t → (a.expected s).Takes t)
include hG htakes

private theorem goes_token {r : Reading} {w w' : Stroke} {ws : List Stroke} {rounds : Nat}
    (hgap : w.text = [] → w.gap = [])
    (hstep : a.step (r.state a) (a.numbering.tokenNumber w.token) = ⟨[], true⟩)
    (hadmits : Admits a (a.after (r.state a) (.token (a.numbering.tokenNumber w.token))) w'.token)
    (hrounds : rounds ≤ 512)
    (h : Goes a leaves G rounds (r.above [⟨a.after (r.state a)
      (.token (a.numbering.tokenNumber w.token)), w.trees⟩]) (w' :: ws)) :
    Goes a leaves G 1 r (w :: w' :: ws) := by
  intro l hl hread
  refine settles_take hl hgap hstep ?_
  rcases hread with hleft | ⟨l', hl', hfirst, hread⟩
  · exact hG.left hleft _ _
  · refine reaches_of_settles hG (hfirst _ (htakes hadmits)) ?_ hrounds (h l' hl' hread)
    rw [hl'.token_eq]
    exact hadmits.not_silent

/-- Where the parts of a piece that are left are spelled, and behind the closed piece the reading
comes to a goal, it comes to it in front of them. -/
theorem Sketch.Spells.goes (hS : ∀ p, S.isCoherent p = true) (hreads : S.Reads a reads)
    {form : List (Element P)} {ws : List Stroke} {ts : List Tree} (h : S.Spells form ws ts) {p : P}
    {base : Reading} {fs : List Frame} {w : Stroke} {rest : List Stroke} {rounds : Nat}
    (hgoes : S.GoesOn a reads p fs.length ((base.above fs).state a) form)
    (hsuits : S.suits p form = true) (hw : w.token ∈ S.follow p) (hrounds : rounds + S.rank p ≤ 511)
    (hclosed : Goes a leaves G rounds (base.above
      [closedFrame a (S.symbol p) base (ts.reverse ++ Frame.treesOf fs)]) (w :: rest)) :
    Goes a leaves G (if form.isEmpty then rounds + 1 else 1) (base.above fs)
      (ws ++ w :: rest) := by
  induction h generalizing p base fs w rest rounds with
  | nil =>
    intro l hl hread
    obtain ⟨i, hstep, hi⟩ := hgoes w.token hw
    rw [← hl.token_eq] at hstep
    exact settles_close hstep hi (hclosed l hl hread)
  | @token w₀ form ws ts hgap h ih =>
    obtain ⟨hstep, hadmits, hgoes⟩ := hgoes
    have htrees : (w₀.trees ++ ts).reverse ++ Frame.treesOf fs =
        ts.reverse ++ Frame.treesOf (⟨a.after ((base.above fs).state a)
          (.token (a.numbering.tokenNumber w₀.token)), w₀.trees⟩ :: fs) := by
      rw [Frame.treesOf_cons, List.reverse_append, w₀.reverse_trees, List.append_assoc]
    rw [htrees] at hclosed
    have hrest := ih hgoes hsuits hw hrounds hclosed
    obtain ⟨w', rest', heq, hw'⟩ := h.next hS hw rest
    rw [List.cons_append]
    rw [heq] at hrest ⊢
    exact goes_token hG htakes hgap hstep (hadmits _ hw') (by split <;> omega) hrest
  | @piece q inner form ws ws' ts ts' hmem hinner h ih ih' =>
    obtain ⟨hreads', hgoes⟩ := hgoes
    simp only [Sketch.suits, Bool.and_eq_true, List.all_eq_true, Bool.or_eq_true,
      decide_eq_true_eq] at hsuits
    obtain ⟨⟨hnext, hrank⟩, hsuits⟩ := hsuits
    have htrees : (S.wrap q ts ++ ts').reverse ++ Frame.treesOf fs =
        ts'.reverse ++ Frame.treesOf (closedFrame a (S.symbol q) (base.above fs)
          (ts.reverse ++ Frame.treesOf []) :: fs) := by
      rw [Frame.treesOf_cons, List.reverse_append, S.wrap_reverse, List.append_assoc, closedFrame,
        Frame.treesOf, List.append_nil]
    rw [htrees] at hclosed
    have hrest := ih' hgoes hsuits hw hrounds hclosed
    have hcoherent := hS q
    simp only [Sketch.isCoherent, Bool.and_eq_true, List.all_eq_true] at hcoherent
    obtain ⟨hmost, hforms⟩ := hcoherent
    have hmost : S.rank q ≤ 500 := of_decide_eq_true hmost
    obtain ⟨⟨hne, -⟩, hsuits'⟩ := hforms inner hmem
    -- behind the inner piece comes a token that may follow it
    obtain ⟨w', rest', heq, hw'⟩ := h.next hS hw rest
    have hfollow : w'.token ∈ S.follow q := List.contains_iff_mem.1 (hnext _ hw')
    have hlimit : (if form.isEmpty then rounds + 1 else 1) + S.rank q ≤ 511 := by
      cases form with
      | nil =>
        simp only [List.isEmpty_nil, Bool.not_true, Bool.false_eq_true, false_or] at hrank
        simp only [List.isEmpty_nil, if_true]
        omega
      | cons x form =>
        simp only [List.isEmpty_cons, Bool.false_eq_true, if_false]
        omega
    rw [List.append_assoc, heq]
    rw [heq] at hrest
    have hinner' : Goes a leaves G (if inner.isEmpty then _ + 1 else 1) ((base.above fs).above [])
        (ws ++ w' :: rest') :=
      ih (hreads _ _ hreads' inner hmem) hsuits' hfollow hlimit hrest
    rw [Bool.not_eq_true'] at hne
    rwa [hne, if_neg Bool.false_ne_true] at hinner'

end

/-! ## Scripts -/

/-- Where a sketch of scripts spells what a text is read as, and behind it the reading comes to a
goal, it comes to it at the start. -/
theorem Sketch.Spells.reaches {P : Type} {S : Sketch P} {reads : State → P → Prop} {p : P}
    (hG : IsGoal automaton leaves G) (hS : ∀ p, S.isCoherent p = true)
    (hsuits : S.Suits automaton p reads) {form : List (Element P)} (hform : form ∈ S.forms p)
    {ws : List Stroke} {ts : List Tree} (h : S.Spells form ws ts) {w : Stroke}
    (hw : w.token ∈ S.follow p) {s : List Char} (hread : ReadAs leaves .none s (ws ++ [w]))
    (hclosed : Goes automaton leaves G 1
      ((⟨[], 0⟩ : Reading).above [closedFrame automaton (S.symbol p) ⟨[], 0⟩ ts.reverse]) [w]) :
    Reaches G ⟨[], 0⟩ .none s := by
  have htakes {s t} (h : Admits automaton s t) : (automaton.expected s).Takes t :=
    takes_expected h.mem_tokens h.not_silent h.holds h.alone
  have hcoherent := hS p
  simp only [isCoherent, Bool.and_eq_true, List.all_eq_true] at hcoherent
  obtain ⟨hmost, hforms⟩ := hcoherent
  have hmost : S.rank p ≤ 500 := of_decide_eq_true hmost
  obtain ⟨⟨-, hfirsts⟩, hsuitsForm⟩ := hforms form hform
  rw [← List.append_nil ts.reverse] at hclosed
  have hgoes : Goes automaton leaves G (if form.isEmpty then 1 + 1 else 1)
      ((⟨[], 0⟩ : Reading).above []) (ws ++ [w]) :=
    h.goes hG htakes hS hsuits.goes (hsuits.goes _ _ hsuits.start form hform) hsuitsForm hw
      (by omega) hclosed
  obtain ⟨w', rest, heq, hw'⟩ := h.next hS hw []
  have hadmits := hsuits.firsts _ (List.contains_iff_mem.1 (hfirsts _ hw'))
  rw [heq] at hgoes hread
  rcases hread with hleft | ⟨l, hl, hfirst, hread⟩
  · exact hG.left hleft _ _
  · exact reaches_of_settles hG (hfirst _ (htakes hadmits))
      (by rw [hl.token_eq]; exact hadmits.not_silent) (by split <;> omega) (hgoes l hl hread)

/-- A single version gives a tree: it goes on to it, or has come to it. -/
inductive Gives (a : Automaton) (T : Tree) : Progress → Prop
  | active {v : Version} (hv : v.status = .active)
      (h : ∀ furthest, Progress.finish? furthest ⟨[v], none⟩ a = some T) : Gives a T ⟨[v], none⟩
  | done {v : Version} {best : Option (Int × Tree)} (hv : v.status ≠ .active)
      (h : best.map (·.2) = some T) : Gives a T ⟨[v], best⟩

/-- A text that is read to its end can give a tree. -/
theorem isGoal_gives (a : Automaton) (T : Tree) : IsGoal a AllRead (Gives a T) where
  back {v} hv h := by
    generalize hp : Progress.advance a 0 ⟨[v], none⟩ = p at h
    cases h with
    | active hw hreaches => exact .active hv (finish?_of_advance hv hw hp hreaches)
    | done hw hbest =>
      refine .active hv fun furthest => ?_
      rw [Progress.finish?_of_not_active hv hw hp]
      exact hbest
  left h := absurd h (List.cons_ne_nil _ _)

private theorem closedFrame_script (ts : List Tree) :
    closedFrame automaton (.phrase .script) ⟨[], 0⟩ ts =
      ⟨[(automaton.wholeItem.next, automaton.follow)], ts⟩ := by
  have htransparent : Phrase.isTransparent .script = true := rfl
  have hstate : automaton.after ((⟨[], 0⟩ : Reading).state automaton)
      (automaton.numbering.partOf (.phrase .script)) =
        [(automaton.wholeItem.next, automaton.follow)] := after_start_script
  rw [closedFrame, hstate, Reading.wrap, htransparent, if_pos rfl]

/-- At its end a whole script gives its tree. -/
private theorem goes_finish (ts : List Tree) (gap : List Char) :
    Goes automaton AllRead (Gives automaton (.node .script (ts ++ [.leaf gap []]))) 1
      ((⟨[], 0⟩ : Reading).above [closedFrame automaton (.phrase .script) ⟨[], 0⟩ ts.reverse])
      [⟨.finish, gap, []⟩] := by
  intro l hl _ fuel place hfuel hplace
  obtain ⟨fuel, rfl⟩ := Nat.exists_eq_add_of_le' hfuel
  have hstep : automaton.step (((⟨[], 0⟩ : Reading).above [closedFrame automaton (.phrase .script)
      ⟨[], 0⟩ ts.reverse]).state automaton) (automaton.numbering.tokenNumber l.token) =
        ⟨[automaton.wholeItem.next], false⟩ := by
    rw [hl.token_eq, closedFrame_script]
    exact step_script
  rw [Progress.settle_whole fuel hstep rfl]
  refine .done (by simp) ?_
  simp [Progress.treeOf, closedFrame_script, Reading.above, Frame.treesOf, hplace, hl.gap_eq]

/-- A text that is read as what a sketch of scripts spells has the tree that the sketch gives. -/
theorem Sketch.parse?_of_spells {P : Type} {S : Sketch P} {reads : State → P → Prop} {p : P}
    (hS : ∀ p, S.isCoherent p = true) (hsuits : S.Suits automaton p reads)
    (hsymbol : S.symbol p = .phrase .script) (hfollow : .finish ∈ S.follow p)
    {form : List (Element P)} (hform : form ∈ S.forms p) {ws : List Stroke} {ts : List Tree}
    (h : S.Spells form ws ts) {s gap : List Char} (hmark : s.head? ≠ some '\ufeff')
    (hread : ReadAs AllRead .none s (ws ++ [⟨.finish, gap, []⟩])) :
    parse? s = some (.node .script (ts ++ [.leaf gap []])) := by
  have hfinish := goes_finish ts gap
  rw [← hsymbol] at hfinish
  have hgives := h.reaches (isGoal_gives _ _) hS hsuits hform hfollow hread hfinish 0
  rw [parse?, start_eq hmark]
  cases hgives with
  | active _ h => exact h 0
  | done hv _ => exact absurd rfl hv

end ScriptDeps.Source
