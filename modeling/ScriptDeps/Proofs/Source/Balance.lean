import ScriptDeps.Proofs.Source.Nodes
import ScriptDeps.Proofs.Source.Spelling

/-!
# Blocks that begin and end

Each phrase of the grammar that begins a block also ends it, so a whole script ends as many blocks
as it begins, and none is open behind it. The indentation of a block counts modulo 256, and only a
block that counts as indented is ended by a line. A script in which a block opens that counts as not
indented therefore has no tree, whatever stands behind it. Main statement:
`Sketch.parse?_eq_none_of_spells`.
-/

namespace ScriptDeps.Source

open Automaton

/-! ## The balance of a phrase -/

/-- The blocks that a symbol begins less those that it ends. -/
def Symbol.balance : Symbol → Int
  | .token .indent => 1
  | .token .dedent => -1
  | .phrase .block => -1
  | _ => 0

/-- The blocks that symbols in a row begin less those that they end. -/
def balance : List Symbol → Int
  | [] => 0
  | x :: xs => x.balance + balance xs

/-- The balances of two rows add up. -/
@[simp] theorem balance_append (xs ys : List Symbol) :
    balance (xs ++ ys) = balance xs + balance ys := by
  induction xs with
  | nil => simp [balance]
  | cons x xs ih => simp [balance, ih, Int.add_assoc]

/-- The balance does not depend on the order. -/
@[simp] theorem balance_reverse (xs : List Symbol) : balance xs.reverse = balance xs := by
  induction xs with
  | nil => rfl
  | cons x xs ih => simp [balance, ih, Int.add_comm]

private theorem keepsBalance :
    grammar.allForms (fun x parts => x.balance == balance parts) = true := by
  decide +kernel

/-- A phrase or series begins and ends as many blocks as its parts. -/
theorem balance_of_builds {x : Symbol} {parts : List Symbol} (h : Builds grammar x parts) :
    x.balance = balance parts := by
  have htest : (x.balance == balance parts) = true := test_of_builds keepsBalance rfl h
  exact eq_of_beq htest

/-! ## What a lexeme opens and ends -/

/-- The open blocks behind a lexeme are those that its token says: the start of a block may open
one, and the end of a block ends one that counts as indented. -/
def Lexeme.Nests (n : Nesting) (l : Lexeme) : Prop :=
  match l.token with
  | .indent => l.nesting.indents = n.indents ∨ ∃ width, l.nesting.indents = width :: n.indents
  | .dedent => ∃ width, 0 < width ∧ n.indents = width :: l.nesting.indents
  | _ => l.nesting.indents = n.indents

namespace Lexeme

variable {e : Expected} {n : Nesting}

/-- A token that is no mark of a block. -/
private theorem nests_of_ne {l : Lexeme} (hindent : l.token ≠ .indent) (hdedent : l.token ≠ .dedent)
    (h : l.nesting.indents = n.indents) : l.Nests n := by
  unfold Nests
  split <;> first | contradiction | exact h

private theorem nests_mark? {v : Survey} {mark : Token} (h : v.mark? e n = some mark)
    (gap s : List Char) : Nests n ⟨mark, gap, [], s, v.nesting mark n⟩ := by
  unfold Survey.mark? at h
  split at h
  · split at h
    · cases h
      unfold Nests Survey.nesting Nesting.openBlock
      simp only
      split
      · exact .inr ⟨_, rfl⟩
      · exact .inl rfl
    · split at h
      · next hdedent =>
        cases h
        have hless : v.width.toNat < n.indents.headD 0 := hdedent.2.1
        unfold Nests Survey.nesting Nesting.closeBlock
        cases hindents : n.indents with
        | nil => simp [hindents] at hless
        | cons width indents =>
          rw [hindents, List.headD_cons] at hless
          exact ⟨width, Nat.zero_lt_of_lt hless, by simp⟩
      · split at h
        · cases h
          exact rfl
        · cases h
  · cases h

private theorem nests_layout? {gap s : List Char} {l : Lexeme} (h : layout? e n gap s = some l) :
    l.Nests n := by
  obtain ⟨v, -, h⟩ := Option.bind_eq_some_iff.1 h
  split at h
  · next hmark =>
    cases h
    exact nests_mark? hmark gap s
  · split at h
    · obtain ⟨r, -, rfl⟩ := Option.map_eq_some_iff.1 h
      exact rfl
    · cases h

private theorem nests_sensitive? {s : List Char} {l : Lexeme} (h : sensitive? e n s = some l) :
    l.Nests n := by
  unfold sensitive? at h
  split at h
  · exact nests_layout? h
  · split at h
    · split at h
      · cases h
        exact rfl
      · cases h
        exact rfl
      · cases h
        exact rfl
      · cases h
      · exact nests_layout? h
    · exact nests_layout? h

private theorem nests_joint? {gap s : List Char} {l : Lexeme} (h : joint? n gap s = some l) :
    l.Nests n := by
  unfold joint? at h
  split at h <;> cases h <;> exact rfl

private theorem nests_backslash? {s : List Char} {l : Lexeme} (h : backslash? e n s = some l) :
    l.Nests n := by
  rw [backslash?] at h
  split at h
  · cases h
    exact rfl
  · rcases Option.or_eq_some_iff.1 h with h | ⟨-, h⟩
    · exact nests_joint? h
    · split at h
      · cases h
        exact rfl
      · cases h

/-- A token with a text of its own is no mark of a block. -/
private theorem token_of_longest? {s : List Char} {r : Token × List Char}
    (h : longest? e s = some r) : r.1 ≠ .indent ∧ r.1 ≠ .dedent := by
  rcases of_longest?_eq_some h with h | h | h | h
  · obtain ⟨htoken, -⟩ := numberAt?_ne_nil h
    simp [htoken]
  · obtain ⟨htoken, -⟩ := conversionAt?_ne_nil h
    simp [htoken]
  · unfold nameAt? at h
    grind
  · obtain ⟨sign, -, rfl, -⟩ := signStands_of_signAt? h
    simp

private theorem nests_behind? {gap s : List Char} {l : Lexeme} (h : behind? e n gap s = some l) :
    l.Nests n := by
  unfold behind? at h
  split at h
  · split at h
    · cases h
      exact rfl
    · cases h
  · exact nests_joint? h
  · cases h
    exact rfl
  · obtain ⟨r, hr, rfl⟩ := Option.map_eq_some_iff.1 h
    obtain ⟨hindent, hdedent⟩ := token_of_longest? hr
    exact nests_of_ne hindent hdedent rfl

private theorem nests_plain? {s : List Char} {l : Lexeme} (h : plain? e n s = some l) :
    l.Nests n := by
  unfold plain? at h
  rcases Option.or_eq_some_iff.1 h with h | ⟨-, h⟩
  · split at h
    · simp only [format?] at h
      split at h
      · cases h
      · cases h
        exact rfl
    · cases h
  · split at h
    · exact nests_backslash? h
    · exact nests_behind? h

/-- Every lexeme opens and ends the blocks that its token says. -/
theorem nests_of_first? {s : List Char} {l : Lexeme} (h : first? e n s = some l) : l.Nests n := by
  rw [first?, Option.or_eq_some_iff] at h
  rcases h with h | ⟨-, h⟩
  · exact nests_sensitive? h
  · exact nests_plain? h

end Lexeme

/-- Every lexeme that is read at a place opens and ends the blocks that its token says. -/
theorem Place.Has.nests {a : Automaton} {p : Place} {l : Lexeme} (h : p.Has a l) :
    l.Nests p.nesting := by
  obtain ⟨s, l', hl', rfl | hname⟩ := h
  · exact Lexeme.nests_of_first? hl'
  · have hnests := Lexeme.nests_of_first? hl'
    unfold Lexeme.asName? at hname
    split at hname
    · next hword =>
      split at hname
      · cases hname
      · cases hname
        rw [Lexeme.Nests, hword] at hnests
        exact hnests
    · cases hname

namespace Lexeme.Nests

variable {n : Nesting} {l : Lexeme}

/-- What stands between two tokens opens and ends no block. -/
theorem indents_eq (h : l.Nests n) (htoken : l.token = .comment ∨ l.token = .joint) :
    l.nesting.indents = n.indents := by
  rcases htoken with htoken | htoken <;> rwa [Nests, htoken] at h

/-- At most as many blocks are opened as begin, and as many are ended as end. -/
theorem length_le (h : l.Nests n) :
    (l.nesting.indents.length : Int) ≤ (Symbol.token l.token).balance + n.indents.length := by
  unfold Nests at h
  split at h
  · next hindent =>
    have hone : (Symbol.token l.token).balance = 1 := by rw [hindent]; rfl
    rcases h with heq | ⟨width, heq⟩
    · rw [heq]
      omega
    · rw [heq, List.length_cons]
      omega
  · next hdedent =>
    have hone : (Symbol.token l.token).balance = -1 := by rw [hdedent]; rfl
    obtain ⟨width, -, heq⟩ := h
    rw [heq, List.length_cons]
    omega
  · next hindent hdedent =>
    have hzero : (Symbol.token l.token).balance = 0 := by
      unfold Symbol.balance
      split <;> simp_all
    rw [h]
    omega

/-- A block that counts as not indented is not ended. -/
theorem zero_mem (h : l.Nests n) (hzero : 0 ∈ n.indents) : 0 ∈ l.nesting.indents := by
  unfold Nests at h
  split at h
  · rcases h with heq | ⟨width, heq⟩
    · rwa [heq]
    · rw [heq]
      exact List.mem_cons_of_mem _ hzero
  · obtain ⟨width, hwidth, heq⟩ := h
    rw [heq] at hzero
    exact (List.mem_cons.1 hzero).resolve_left (Nat.ne_of_lt hwidth)
  · rwa [h]

end Lexeme.Nests

/-- Behind a lexeme is open what the lexeme leaves open. -/
theorem Place.nesting_take (p : Place) (l : Lexeme) : (p.take l).1.nesting = l.nesting := by
  rw [take]
  split <;> rfl

/-- At the same place the same is open. -/
theorem Place.same_nesting {p q : Place} (h : p.same q = true) : p.nesting = q.nesting := by
  simp only [same, Bool.and_eq_true, beq_iff_eq] at h
  exact h.2

/-! ## Readings -/

/-- A reading has begun all blocks that are open at its place, and has not ended them. -/
def Reading.Covers (p : Place) (r : Reading) : Prop :=
  ∃ xs, Rooted grammar xs r.frames ∧ (p.nesting.indents.length : Int) ≤ balance xs

/-- Each step keeps the blocks that are open among those that a reading has begun. -/
theorem kept_covers : Kept automaton Reading.Covers where
  close {p r i token} h hi hne := by
    obtain ⟨xs, hrooted, hle⟩ := h
    obtain ⟨x, done, below, rfl, hbuilds, hclosed⟩ := hrooted.close script_mem_phrases hi hne
    refine ⟨x :: below, hclosed, ?_⟩
    rw [balance, balance_of_builds hbuilds, balance_reverse, ← balance_append]
    exact hle
  take {p r l} h hl := by
    obtain ⟨xs, hrooted, hle⟩ := h
    refine ⟨_, hrooted.take hl, ?_⟩
    rw [Place.nesting_take, balance]
    exact hl.nests.length_le.trans (Int.add_le_add_left hle _)
  skip {p r l} h hl htoken := by
    obtain ⟨xs, hrooted, hle⟩ := h
    exact ⟨xs, hrooted, hl.nests.indents_eq htoken ▸ hle⟩
  join _ h hsame _ := by
    rw [Reading.Covers, Place.same_nesting hsame]
    exact h

/-- A block is open that counts as not indented. -/
def Nesting.IsEndless (n : Nesting) : Prop := 0 ∈ n.indents

/-- A block that counts as not indented stays open. -/
theorem kept_isEndless : Kept automaton fun p _ => p.nesting.IsEndless where
  close h _ _ := h
  take {p r l} h hl := by
    rw [Place.nesting_take]
    exact hl.nests.zero_mem h
  skip h hl _ := hl.nests.zero_mem h
  join _ h hsame _ := by
    rw [Place.same_nesting hsame]
    exact h

/-- Behind a whole script no block is open, so none of its readings has opened a block that counts
as not indented. -/
theorem finish?_eq_none_of_isEndless {v : Version} (hcovers : v.Holds automaton Reading.Covers)
    (hendless : v.place.nesting.IsEndless) (furthest : Nat) :
    Progress.finish? furthest ⟨[v], none⟩ automaton = none := by
  have hholds : Progress.Holds automaton (fun p r => r.Covers p ∧ p.nesting.IsEndless)
      ⟨[v], none⟩ :=
    ⟨List.forall_mem_singleton.2 ⟨hcovers.nonempty, fun r hr => ⟨hcovers.readings r hr, hendless⟩,
      hcovers.state⟩, nofun⟩
  rw [Option.eq_none_iff_forall_ne_some]
  intro t ht
  obtain ⟨p, r, l, ⟨⟨xs, hrooted, hle⟩, hopen⟩, -, ⟨i, hi, hleft⟩, -⟩ :=
    Progress.Holds.finish? (kept_covers.and kept_isEndless) ht hholds
  obtain rfl := hrooted.eq_script script_mem_phrases hi hleft
  have hzero : balance [.phrase .script] = 0 := rfl
  have hnil : p.nesting.indents = [] := List.eq_nil_of_length_eq_zero (by omega)
  rw [Nesting.IsEndless, hnil] at hopen
  exact List.not_mem_nil hopen

/-! ## Texts -/

/-- Some tokens are left where a block is open that counts as not indented. -/
def EndlesslyLeft (n : Nesting) (ws : List Stroke) : Prop := ws ≠ [] ∧ n.IsEndless

/-- A single version goes on, and if its readings have begun all open blocks it gives no tree. -/
def GivesNone (p : Progress) : Prop :=
  ∃ v : Version, p = ⟨[v], none⟩ ∧ v.status = .active ∧ (v.Holds automaton Reading.Covers →
    ∀ furthest, Progress.finish? furthest ⟨[v], none⟩ automaton = none)

/-- A text with a block that counts as not indented gives no tree. -/
theorem isGoal_givesNone : IsGoal automaton EndlesslyLeft GivesNone where
  back {v} hv h := by
    obtain ⟨w, hadvance, hw, hnone⟩ := h
    refine ⟨v, rfl, hv, fun hcovers => finish?_of_advance hv hw hadvance (hnone ?_)⟩
    have hholds : Progress.Holds automaton Reading.Covers ⟨[v], none⟩ :=
      ⟨List.forall_mem_singleton.2 hcovers, nofun⟩
    have hadvanced := hholds.advance (i := 0) kept_covers
    rw [hadvance] at hadvanced
    exact hadvanced.versions w (List.mem_singleton.2 rfl)
  left hleft r s offset :=
    ⟨_, rfl, rfl, fun hcovers => finish?_eq_none_of_isEndless hcovers hleft.2⟩

/-- A text has no tree if what a sketch of scripts spells is read up to a block that counts as not
indented. -/
theorem Sketch.parse?_eq_none_of_spells {P : Type} {S : Sketch P} {reads : State → P → Prop} {p : P}
    (hS : ∀ p, S.isCoherent p = true) (hsuits : S.Suits automaton p reads)
    {form : List (Element P)} (hform : form ∈ S.forms p) {ws : List Stroke} {ts : List Tree}
    (h : S.Spells form ws ts) {w : Stroke} (hw : w.token ∈ S.follow p) {s : List Char}
    (hmark : s.head? ≠ some '\ufeff') (hread : ReadAs EndlesslyLeft .none s (ws ++ [w])) :
    parse? s = none := by
  have hlast : Goes automaton EndlesslyLeft GivesNone 1 ((⟨[], 0⟩ : Reading).above
      [closedFrame automaton (S.symbol p) ⟨[], 0⟩ ts.reverse]) [w] :=
    fun _ _ hread => absurd rfl hread.1
  obtain ⟨v, heq, -, hnone⟩ := h.reaches isGoal_givesNone hS hsuits hform hw hread hlast 0
  have hcovers : Version.Holds automaton Reading.Covers ⟨[⟨[], 0⟩], ⟨0, [], .none, s⟩, .active⟩ :=
    .single ⟨[], .nil, le_refl _⟩
  obtain rfl := List.singleton_inj.1 (congrArg Progress.versions heq)
  rw [parse?, start_eq hmark]
  exact hnone hcovers 0

end ScriptDeps.Source
