import ScriptDeps.Proofs.Source.Leading
import ScriptDeps.Proofs.Source.Runs

/-!
# Texts of tokens

A word or a sign is written as it stands in the grammar, a name is made of letters of names, and a
layout mark has no text. Main statement: `Place.Has.hasText`, for all lexemes of all scripts.
-/

namespace ScriptDeps.Source

/-- A text is made like a name. -/
def IsNameText (text : List Char) : Prop :=
  ∃ c s, text = c :: s ∧ Text.isNameStart c = true ∧ ∀ d ∈ s, Text.isNameRest d = true

/-- A name has a character. -/
theorem IsNameText.ne_nil {text : List Char} (h : IsNameText text) : text ≠ [] := by
  obtain ⟨c, s, rfl, -⟩ := h
  exact List.cons_ne_nil c s

/-- A text that a token can have. -/
def Token.HasText : Token → List Char → Prop
  | .word w, text => text = w.toList ∧ IsNameText text
  | .sign s, text => text = s.toList
  | .name, text => IsNameText text
  | .newline, text | .indent, text | .dedent, text | .finish, text => text = []
  | _, _ => True

namespace Lexeme

variable {e : Expected} {n : Nesting}

private theorem hasText_nameAt? {s : List Char} {r : Token × List Char}
    (h : nameAt? e s = some r) : r.1.HasText r.2 := by
  cases s with
  | nil => simp [nameAt?] at h
  | cons c s =>
    simp only [nameAt?] at h
    split at h
    · next hstart =>
      have hname : IsNameText (c :: s.takeWhile Text.isNameRest) :=
        ⟨c, _, rfl, hstart.2, fun d hd => List.all_eq_true.1 List.all_takeWhile d hd⟩
      split at h
      · cases h
        exact ⟨String.toList_ofList.symm, hname⟩
      · split at h
        · cases h
        · cases h
          exact hname
    · cases h

private theorem hasText_longest? {s : List Char} {r : Token × List Char}
    (h : longest? e s = some r) : r.1.HasText r.2 := by
  rcases of_longest?_eq_some h with h | h | h | h
  · obtain ⟨htoken, -⟩ := numberAt?_ne_nil h
    rw [htoken]
    trivial
  · obtain ⟨htoken, -⟩ := conversionAt?_ne_nil h
    rw [htoken]
    trivial
  · exact hasText_nameAt? h
  · obtain ⟨sign, -, rfl, -⟩ := signStands_of_signAt? h
    exact rfl

private theorem hasText_mark? {v : Survey} {mark : Token} (h : v.mark? e n = some mark) :
    mark.HasText [] := by
  unfold Survey.mark? at h
  grind [Token.HasText]

private theorem hasText_layout? {gap s : List Char} {l : Lexeme} (h : layout? e n gap s = some l) :
    l.token.HasText l.text := by
  obtain ⟨v, -, h⟩ := Option.bind_eq_some_iff.1 h
  split at h
  · next hmark =>
    cases h
    exact hasText_mark? hmark
  · split at h
    · obtain ⟨r, -, rfl⟩ := Option.map_eq_some_iff.1 h
      trivial
    · cases h

private theorem hasText_sensitive? {s : List Char} {l : Lexeme} (h : sensitive? e n s = some l) :
    l.token.HasText l.text := by
  unfold sensitive? at h
  split at h
  · exact hasText_layout? h
  · split at h
    · split at h
      · cases h
        trivial
      · cases h
        trivial
      · cases h
        trivial
      · cases h
      · exact hasText_layout? h
    · exact hasText_layout? h

private theorem hasText_joint? {gap s : List Char} {l : Lexeme} (h : joint? n gap s = some l) :
    l.token.HasText l.text := by
  unfold joint? at h
  split at h <;> cases h <;> trivial

private theorem hasText_backslash? {s : List Char} {l : Lexeme} (h : backslash? e n s = some l) :
    l.token.HasText l.text := by
  rw [backslash?] at h
  split at h
  · cases h
    trivial
  · rcases Option.or_eq_some_iff.1 h with h | ⟨-, h⟩
    · exact hasText_joint? h
    · split at h
      · cases h
        trivial
      · cases h

private theorem hasText_format? {s : List Char} {l : Lexeme} (h : format? n s = some l) :
    l.token.HasText l.text := by
  simp only [format?] at h
  split at h
  · cases h
  · cases h
    trivial

private theorem hasText_behind? {gap s : List Char} {l : Lexeme}
    (h : behind? e n gap s = some l) : l.token.HasText l.text := by
  unfold behind? at h
  split at h
  · split at h
    · cases h
      rfl
    · cases h
  · exact hasText_joint? h
  · cases h
    trivial
  · obtain ⟨r, hr, rfl⟩ := Option.map_eq_some_iff.1 h
    exact hasText_longest? hr

private theorem hasText_plain? {s : List Char} {l : Lexeme} (h : plain? e n s = some l) :
    l.token.HasText l.text := by
  unfold plain? at h
  rcases Option.or_eq_some_iff.1 h with h | ⟨-, h⟩
  · split at h
    · exact hasText_format? h
    · cases h
  · split at h
    · exact hasText_backslash? h
    · exact hasText_behind? h

/-- Every lexeme is a token with a text that it can have. -/
theorem hasText_of_first? {s : List Char} {l : Lexeme} (h : first? e n s = some l) :
    l.token.HasText l.text := by
  rw [first?, Option.or_eq_some_iff] at h
  rcases h with h | ⟨-, h⟩
  · exact hasText_sensitive? h
  · exact hasText_plain? h

end Lexeme

/-- Every lexeme that is read at a place is a token with a text that it can have. -/
theorem Place.Has.hasText {a : Automaton} {p : Place} {l : Lexeme} (h : p.Has a l) :
    l.token.HasText l.text := by
  obtain ⟨s, l', hl', rfl | hname⟩ := h
  · exact Lexeme.hasText_of_first? hl'
  · have htext := Lexeme.hasText_of_first? hl'
    unfold Lexeme.asName? at hname
    split at hname
    · next hword =>
      rw [hword] at htext
      split at hname
      · cases hname
      · cases hname
        exact htext.2
    · cases hname

end ScriptDeps.Source
