import Mathlib.Data.List.TakeWhile
import ScriptDeps.CommandLine.Reader
import ScriptDeps.Proofs.CommandLine.Choices

/-!
# How options are written

An option is written by its name or its letter. A value stands in the next word, or behind an equals
sign, or right behind the letter, and letters of options without values may stand together in front
of another letter. The name of each option and its letter tell it from the others, and a word in
which they stand looks like what it is. Main statements: `Word.ofText_name`,
`Word.ofText_nameEquals`, `Word.ofText_cluster`, `Scope.ofName?_name` and `Scope.ofLetter?_letter`.
-/

namespace ScriptDeps.CommandLine

/-- A text begins with a character. -/
def BeginsWith (c : Char) (text : String) : Prop := text.toList.head? = some c

instance (c : Char) (text : String) : Decidable (BeginsWith c text) :=
  inferInstanceAs (Decidable (text.toList.head? = some c))

/-- An option has a value, and it is `value`. -/
structure Choices.Sets (c : Choices) (o : Choice) (value : String) : Prop where
  /-- The option has a value. -/
  hasValue : o.hasValue = true
  /-- It is this one. -/
  value?_eq : c.value? o = some value
  /-- It is not empty. -/
  ne_empty : value ≠ ""

/-- An option without a value was given. -/
structure Choices.Turns (c : Choices) (o : Choice) : Prop where
  /-- The option has no value. -/
  hasValue : o.hasValue = false
  /-- It was given. -/
  value?_eq : c.value? o = some ""

/-- The letters of options without values. -/
inductive Letters (c : Choices) (scope : Scope) : List Choice → List Char → Prop where
  /-- No option. -/
  | nil : Letters c scope [] []
  /-- One more option. -/
  | cons {o : Choice} {l : Char} {options : List Choice} {letters : List Char}
    (mem : o ∈ scope.choices) (letter : o.letter? = some l) (turns : c.Turns o)
    (others : Letters c scope options letters) : Letters c scope (o :: options) (l :: letters)

/-- The words give the options their values. -/
inductive Spells (c : Choices) (scope : Scope) : List Choice → List String → Prop where
  /-- The name of an option without a value. -/
  | name {o : Choice} (mem : o ∈ scope.choices) (turns : c.Turns o) :
    Spells c scope [o] ["--" ++ o.name]
  /-- A name, and its value in the next word. -/
  | nameApart {o : Choice} {value : String} (mem : o ∈ scope.choices) (sets : c.Sets o value)
    (plain : ¬BeginsWith '-' value) : Spells c scope [o] ["--" ++ o.name, value]
  /-- A name with its value behind an equals sign. -/
  | nameEquals {o : Choice} {value : String} (mem : o ∈ scope.choices) (sets : c.Sets o value) :
    Spells c scope [o] ["--" ++ o.name ++ "=" ++ value]
  /-- Letters of options without values. -/
  | letters {options : List Choice} {letters : List Char}
    (turned : Letters c scope options letters) (ne_nil : letters ≠ []) :
    Spells c scope options [String.ofList ('-' :: letters)]
  /-- Letters, the last of an option with its value in the next word. -/
  | lettersApart {o : Choice} {value : String} {options : List Choice} {letters : List Char}
    {l : Char} (turned : Letters c scope options letters) (mem : o ∈ scope.choices)
    (letter : o.letter? = some l) (sets : c.Sets o value) (plain : ¬BeginsWith '-' value) :
    Spells c scope (options ++ [o]) [String.ofList ('-' :: (letters ++ [l])), value]
  /-- Letters, the last of an option with its value behind an equals sign. -/
  | lettersEquals {o : Choice} {value : String} {options : List Choice} {letters : List Char}
    {l : Char} (turned : Letters c scope options letters) (mem : o ∈ scope.choices)
    (letter : o.letter? = some l) (sets : c.Sets o value) :
    Spells c scope (options ++ [o]) [String.ofList ('-' :: (letters ++ l :: '=' :: value.toList))]
  /-- Letters, the last of an option with its value right behind it. -/
  | lettersAttached {o : Choice} {value : String} {options : List Choice} {letters : List Char}
    {l : Char} (turned : Letters c scope options letters) (mem : o ∈ scope.choices)
    (letter : o.letter? = some l) (sets : c.Sets o value) (plain : ¬BeginsWith '=' value) :
    Spells c scope (options ++ [o]) [String.ofList ('-' :: (letters ++ l :: value.toList))]

/-- The words give the options their values, one after another. -/
inductive Gives (c : Choices) (scope : Scope) : List Choice → List String → Prop where
  /-- No option. -/
  | nil : Gives c scope [] []
  /-- More options. -/
  | append {front back : List Choice} {words rest : List String}
    (first : Spells c scope front words) (others : Gives c scope back rest) :
    Gives c scope (front ++ back) (words ++ rest)

variable {c : Choices} {scope : Scope} {o : Choice} {value word : String} {l : Char}
  {options done : List Choice} {letters s : List Char} {words : List String}
  {r r' : Reading}

/-! ## Words -/

namespace Word

/-- A word without a dash in front is plain. -/
theorem ofText_plain (h : ¬BeginsWith '-' word) : ofText word = .plain := by
  unfold ofText
  unfold BeginsWith at h
  split <;> simp_all

/-- Behind one dash stand letters. -/
theorem ofText_cluster (hne : s ≠ []) (hdash : s.head? ≠ some '-') :
    ofText (String.ofList ('-' :: s)) = .cluster s := by
  obtain ⟨l, s, rfl⟩ := List.exists_cons_of_ne_nil hne
  unfold ofText
  rw [String.toList_ofList]
  split <;> simp_all

/-- Behind two dashes stands a name, and behind an equals sign its value. -/
theorem ofText_dashes (hne : s ≠ []) :
    ofText (String.ofList ('-' :: '-' :: s)) = .long (s.takeWhile (· != '=')) (attached? s) := by
  obtain ⟨l, s, rfl⟩ := List.exists_cons_of_ne_nil hne
  unfold ofText
  rw [String.toList_ofList]
  rfl

end Word

namespace Choice

/-- Every option has a name. -/
theorem name_ne_nil (o : Choice) : o.name.toList ≠ [] := by
  cases o <;> decide

/-- No name has an equals sign in it. -/
theorem ne_equals_of_mem_name {a : Char} (h : a ∈ o.name.toList) : (a != '=') = true := by
  have hall : o.name.toList.all (· != '=') = true := by cases o <;> decide
  exact List.all_eq_true.1 hall a h

/-- No option has a dash for its letter. -/
theorem letter_ne_dash (h : o.letter? = some l) : l ≠ '-' := by
  rintro rfl
  cases o <;> exact absurd h (by decide)

end Choice

/-- A name behind two dashes is read as that name. -/
theorem Word.ofText_name (o : Choice) : ofText ("--" ++ o.name) = .long o.name.toList none := by
  have htext : "--" ++ o.name = String.ofList ('-' :: '-' :: o.name.toList) :=
    String.toList_injective (by simp)
  have hname : ∀ a ∈ o.name.toList, (a != '=') = true := fun _ => Choice.ne_equals_of_mem_name
  have hend : o.name.toList.dropWhile (· != '=') = [] := List.dropWhile_eq_nil_iff.2 hname
  rw [htext, ofText_dashes o.name_ne_nil, List.takeWhile_eq_self_iff.2 hname]
  simp only [attached?, hend]

/-- A name and a value with an equals sign between them are read as the two. -/
theorem Word.ofText_nameEquals (o : Choice) (value : String) :
    ofText ("--" ++ o.name ++ "=" ++ value) = .long o.name.toList (some value.toList) := by
  have htext : "--" ++ o.name ++ "=" ++ value =
      String.ofList ('-' :: '-' :: (o.name.toList ++ '=' :: value.toList)) :=
    String.toList_injective (by simp)
  have hname : ∀ a ∈ o.name.toList, (a != '=') = true := fun _ => Choice.ne_equals_of_mem_name
  rw [htext, ofText_dashes (by simp), List.takeWhile_append_of_pos hname]
  simp only [attached?, List.dropWhile_append_of_pos hname]
  simp

/-! ## Options of a part of a command line -/

namespace Scope

/-- An option of a scope is found by its name there. -/
theorem ofName?_name (h : o ∈ scope.choices) : scope.ofName? o.name.toList = some o := by
  revert o
  cases scope <;> decide

/-- An option of a scope is found by its letter there. -/
theorem ofLetter?_letter (h : o ∈ scope.choices) (hletter : o.letter? = some l) :
    scope.ofLetter? l = some o := by
  have hall : scope.choices.all (fun o => o.letter?.all (scope.ofLetter? · == some o)) = true := by
    cases scope <;> decide
  have hfound := List.all_eq_true.1 hall o h
  rw [hletter] at hfound
  exact eq_of_beq hfound

/-- In front of a command no option with a value has a letter. -/
theorem letter?_eq_none_of_hasValue (h : o ∈ program.choices) (hvalue : o.hasValue = true) :
    o.letter? = none := by
  revert o
  decide

end Scope

end ScriptDeps.CommandLine
