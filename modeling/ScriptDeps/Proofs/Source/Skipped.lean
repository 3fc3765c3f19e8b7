import Mathlib.Data.List.TakeWhile
import ScriptDeps.Proofs.Source.FirstRound
import ScriptDeps.Proofs.Source.Refusal

/-!
# Texts in front of a script that are looked over

Comment lines, blanks and line ends in front of a script only make its first gap longer. So does a
byte order mark unless a string literal opens behind it; where one does, the script cannot be read.
Main statements: `skipped_commentLines`, `skipped_mark` and `finish?_mark_eq_none`.
-/

namespace ScriptDeps.Source

open Automaton Text

namespace Progress

variable {gap rest w w' r : List Char} {offset furthest : Nat} {l : Lexeme}

/-! ## Longer gaps -/

private theorem firstTaken?_behind (w : List Char) (l : Lexeme) :
    firstTaken? (l.behind w) = (firstTaken? l).map (·.behind w) := by
  have hname : (l.behind w).asName? = l.asName?.map (·.behind w) := by
    unfold Lexeme.asName?
    rw [Lexeme.behind_token]
    split
    · split <;> rfl
    · rfl
  unfold firstTaken?
  rw [Lexeme.behind_token, hname]
  split
  · rfl
  · split <;> rfl

/-- Text in the gap of the first lexeme may as well stand in the gap that was read. -/
theorem readOn_behind (gap : List Char) (offset : Nat) (w : List Char) (l : Lexeme) :
    readOn gap offset (l.behind w) = readOn (gap ++ w) (offset + w.length) l := by
  have hoffset : offset + (w ++ l.gap).length + l.text.length =
      offset + w.length + l.gap.length + l.text.length := by
    rw [List.length_append, ← Nat.add_assoc]
  have htook : ∀ gap offset l', took automaton gap offset (Lexeme.behind w l') =
      took automaton gap offset l' := fun _ _ _ => rfl
  simp only [readOn, firstTaken?_behind, Lexeme.behind_token, Lexeme.behind_gap,
    Lexeme.behind_text, Lexeme.behind_rest, hoffset, List.append_assoc]
  split
  · rfl
  · rfl
  · rfl
  · cases firstTaken? l with
    | none => rfl
    | some l' => simp only [Option.map_some, Option.bind_some, htook]

/-- A text in front of another one that only makes the first gap longer. -/
def Skipped (w r : List Char) : Prop :=
  ∀ (gap : List Char) (offset furthest furthest' : Nat), furthest ≤ offset →
    furthest' ≤ offset + w.length →
      finish? furthest (begun gap offset (w ++ r)) automaton =
        finish? furthest' (begun (gap ++ w) (offset + w.length) r) automaton

/-- A text that only makes the gap of the first lexeme longer. -/
theorem skipped_of_behind (h : Lexeme.first? expectedFirst .none (w ++ r) =
    (Lexeme.first? expectedFirst .none r).map (·.behind w)) : Skipped w r := by
  intro gap offset furthest furthest' hf hf'
  rw [finish?_begun gap hf, finish?_begun _ hf', h]
  cases Lexeme.first? expectedFirst .none r with
  | none => rfl
  | some l => exact readOn_behind gap offset w l

/-- A comment or a joint that is read. -/
theorem skipped_of_comment (gap' text : List Char) {token : Token}
    (htoken : token = .comment ∨ token = .joint)
    (h : Lexeme.first? expectedFirst .none (gap' ++ text ++ r) =
      some ⟨token, gap', text, r, .none⟩) :
    Skipped (gap' ++ text) r := by
  intro gap offset furthest furthest' hf hf'
  have hlength : offset + gap'.length + text.length = offset + (gap' ++ text).length := by
    rw [List.length_append, Nat.add_assoc]
  have hread : readOn gap offset ⟨token, gap', text, r, .none⟩ =
      finish? (offset + (gap' ++ text).length)
        (begun (gap ++ (gap' ++ text)) (offset + (gap' ++ text).length) r) automaton := by
    rcases htoken with rfl | rfl <;> simp only [readOn, hlength, List.append_assoc]
  rw [finish?_begun gap hf, h, Option.bind_some, hread, finish?_begun _ (Nat.le_refl _),
    finish?_begun _ hf']

/-- Texts one behind the other are looked over one after the other. -/
theorem Skipped.append (h : Skipped w (w' ++ r)) (h' : Skipped w' r) : Skipped (w ++ w') r := by
  intro gap offset furthest furthest' hf hf'
  rw [List.length_append, ← Nat.add_assoc] at hf'
  rw [List.append_assoc, h gap offset furthest _ hf (Nat.le_refl _),
    h' (gap ++ w) _ _ furthest' (Nat.le_refl _) hf', List.append_assoc, List.length_append,
    Nat.add_assoc]

/-- Where two texts are looked over and the second one alone is, so is the first one before it. -/
theorem Skipped.cancel (h : Skipped (w ++ w') r) (h' : Skipped w' r) : Skipped w (w' ++ r) := by
  intro gap offset furthest furthest' hf hf'
  rw [← List.append_assoc, h gap offset furthest _ hf (Nat.le_refl _),
    h' (gap ++ w) _ furthest' _ hf' (Nat.le_refl _), List.append_assoc, List.length_append,
    Nat.add_assoc]

/-! ## Comment lines -/

/-- Blanks and line ends are looked over. -/
theorem skipped_blanks (hw : ∀ c ∈ w, isBlankOrEnd c = true) (r : List Char) : Skipped w r :=
  skipped_of_behind (first?_blanks opens_expectedFirst hw r)

/-- A comment is looked over. -/
theorem skipped_comment {body : List Char} (hbody : ∀ c ∈ body, c ≠ '\n' ∧ c ≠ '\x00')
    (hr : ∀ c ∈ r.head?, c = '\n' ∨ c = '\x00') : Skipped ('#' :: body) r :=
  skipped_of_comment [] ('#' :: body) (Or.inl rfl) (first?_comment opens_expectedFirst hbody hr)

/-- A comment line without its newline. -/
def IsComment (line : List Char) : Prop :=
  ∃ body, line = '#' :: body ∧ ∀ c ∈ body, c ≠ '\n' ∧ c ≠ '\x00'

/-- A hash sign and a text without newlines and null characters are a comment line. -/
theorem isComment_cons {body : List Char}
    (h : body.any (fun c => c == '\n' || c == '\x00') = false) : IsComment ('#' :: body) := by
  refine ⟨body, rfl, ?_⟩
  intro c hc
  simpa using eq_false_of_any h c hc

/-- Comment lines are looked over. -/
theorem skipped_commentLines {lines : List (List Char)} (h : ∀ line ∈ lines, IsComment line)
    (r : List Char) : Skipped (lines.map (· ++ ['\n'])).flatten r := by
  induction lines with
  | nil => exact skipped_blanks (by simp) r
  | cons line lines ih =>
    obtain ⟨body, rfl, hbody⟩ := h line List.mem_cons_self
    have hrest := ih fun l hl => h l (List.mem_cons_of_mem _ hl)
    rw [List.map_cons, List.flatten_cons]
    refine Skipped.append (Skipped.append (skipped_comment hbody ?_) (skipped_blanks ?_ _)) hrest
    · intro c hc
      exact Or.inl (Option.some.inj hc).symm
    · intro c hc
      obtain rfl := List.mem_singleton.1 hc
      decide

/-- A script with a null character behind a comment cannot be read. -/
theorem finish?_comment_null {body : List Char} (hbody : ∀ c ∈ body, c ≠ '\n' ∧ c ≠ '\x00')
    (gap : List Char) (hf : furthest ≤ offset) (r : List Char) :
    finish? furthest (begun gap offset ('#' :: body ++ '\x00' :: r)) automaton = none := by
  have hskipped : Skipped ('#' :: body) ('\x00' :: r) := by
    apply skipped_comment hbody
    intro c hc
    exact Or.inr (Option.some.inj hc).symm
  rw [hskipped gap offset furthest _ hf (Nat.le_refl _), finish?_begun _ (Nat.le_refl _),
    first?_null opens_expectedFirst, Option.bind_none]

/-! ## Byte order marks -/

/-- A byte order mark behind which no string literal opens is looked over. -/
theorem skipped_mark {t : List Char} (ht : ¬OpensSoon t) : Skipped ['\ufeff'] t := by
  by_cases hs : Lexeme.sensitive? expectedFirst .none t = none
  · exact skipped_of_behind (first?_mark opens_expectedFirst hs)
  · have hopening : opening? t ≠ none := by
      intro h
      rw [sensitive?_none opens_expectedFirst, h, ite_self] at hs
      exact hs rfl
    rcases opening?_cases hopening with hsoon | ⟨w, j, s, rfl, hw, hj⟩
    · exact absurd hsoon ht
    · have hspace : ∀ c ∈ '\ufeff' :: w, Lexeme.isSpace c = true := by
        intro c hc
        rcases List.mem_cons.1 hc with rfl | hc
        · decide
        · exact isSpace_of_isBlankOrEnd (hw c hc)
      have hboth : Skipped (['\ufeff'] ++ (w ++ j)) s :=
        skipped_of_comment ('\ufeff' :: w) j (Or.inr rfl) <|
          first?_joint opens_expectedFirst hspace hj (sensitive?_mark opens_expectedFirst _)
      have hjoint : Skipped (w ++ j) s :=
        skipped_of_behind (first?_append_of_sensitive? opens_expectedFirst hw hj hs)
      exact hboth.cancel hjoint

private theorem firstTaken?_name (h : l.token = .name) :
    firstTaken? l = if canBegin .name then some l else none := by
  have hname : l.asName? = none := by simp [Lexeme.asName?, h]
  rw [firstTaken?, hname, ite_self, h]

/-- A script in which a quote mark stands behind a name cannot be read. -/
private theorem finish?_took_name {mark : Char} (hmark : isQuoteMark mark = true)
    (gap g letters t : List Char) :
    finish? furthest (took automaton gap offset ⟨.name, g, letters, mark :: t, .none⟩) automaton =
      none := by
  obtain ⟨hquote, hformat, hsigns⟩ := expected_after_name
  have hlexeme : (oneToken automaton gap offset ⟨.name, g, letters, mark :: t, .none⟩).place.lexeme?
      (automaton.expected nameState) = none :=
    first?_quoteMark hquote hformat hsigns hmark t
  rw [nameState, ← state_oneToken automaton gap offset ⟨.name, g, letters, mark :: t, .none⟩]
    at hlexeme
  exact finish?_of_not_active rfl (by simp) (advance_none hlexeme)

/-- A script with a byte order mark behind which a string literal opens cannot be read, unless the
mark is its first character. -/
theorem finish?_mark_eq_none {t : List Char} (ht : OpensSoon t) (gap : List Char)
    (hf : furthest ≤ offset) :
    finish? furthest (begun gap offset ('\ufeff' :: t)) automaton = none := by
  obtain ⟨q, hq⟩ := Option.isSome_iff_exists.1 ht
  have hw : ∀ c ∈ t.takeWhile isBlankOrEnd, isBlankOrEnd c = true := fun c hc =>
    List.mem_takeWhile_imp hc
  have hfirst := first?_mark_of_opensQuote opens_expectedFirst hw (opensQuote_of_openQuote? hq).2
  rw [List.takeWhile_append_dropWhile] at hfirst
  rw [finish?_begun gap hf]
  rcases hfirst with hnone | ⟨letters, mark, s, hne, hmark, hname⟩
  · rw [hnone, Option.bind_none]
  · rw [hname, Option.bind_some]
    simp only [readOn, firstTaken?_name]
    split
    · exact finish?_took_name hmark _ _ _ _
    · rfl

end Progress

end ScriptDeps.Source
