/-!
# Texts between separators

A text is cut at every separator. Main statement: the parts of a text hold no separator.
-/

namespace ScriptDeps.Text

/-- The texts between characters that separate. -/
def splitWhere (separates : Char → Bool) : List Char → List (List Char)
  | [] => [[]]
  | c :: s =>
    if separates c then [] :: splitWhere separates s
    else
      match splitWhere separates s with
      | [] => [[c]]
      | part :: parts => (c :: part) :: parts

/-- The texts between separators. -/
def splitOn (sep : Char) (s : List Char) : List (List Char) := splitWhere (· == sep) s

/-- No part holds a separator. -/
theorem not_separates_of_mem_splitWhere {separates : Char → Bool} {s : List Char} :
    ∀ part ∈ splitWhere separates s, ∀ c ∈ part, separates c = false := by
  induction s with
  | nil => simp [splitWhere]
  | cons c s ih =>
    unfold splitWhere
    by_cases h : separates c
    · simpa [h] using ih
    · simp only [h, Bool.false_eq_true, if_false]
      split
      · simp_all
      · simp_all only [List.mem_cons, forall_eq_or_imp, true_and]
        exact ⟨fun _ _ => trivial, ih.2⟩

end ScriptDeps.Text
