import ScriptDeps.CommandLine.Choice

/-!
# Options by their values

What was given on a command line is the value of each option. Giving the options that a user chose
one after another, each once, ends with all of them whatever their order, also when some were given
in front of a command and the others behind it. Main statements: `give_only`, `under_only` and
`only_eq_self`.
-/

namespace ScriptDeps

/-- A format is known by its word. -/
theorem Report.Format.ofWord?_word (f : Format) : ofWord? f.word = some f := by
  cases f <;> decide

namespace CommandLine

variable {c : Choices} {o : Choice} {value : String} {front back : List Choice}

namespace Choices

/-- The value of an option if it was given; that of an option without a value is empty. -/
def value? (c : Choices) : Choice → Option String
  | .verbose => if c.verbose then some "" else none
  | .python => c.python
  | .pythonVersion => c.pythonVersion
  | .format => c.format.map Report.Format.word
  | .output => c.output
  | .help => none
  | .version => none

/-- The options that were given. -/
def chosen (c : Choices) : List Choice :=
  [Choice.verbose, .python, .pythonVersion, .format, .output].filter (c.value? · |>.isSome)

/-- The options that are chosen are those that have a value. -/
theorem mem_chosen : o ∈ c.chosen ↔ (c.value? o).isSome = true := by
  cases o <;> simp [chosen, value?]

/-- No option is chosen twice. -/
theorem nodup_chosen (c : Choices) : c.chosen.Nodup := List.Pairwise.filter _ (by decide)

/-- Some of the given options. -/
def only (c : Choices) (options : List Choice) : Choices where
  verbose := c.verbose && options.contains .verbose
  python := if .python ∈ options then c.python else none
  pythonVersion := if .pythonVersion ∈ options then c.pythonVersion else none
  format := if .format ∈ options then c.format else none
  output := if .output ∈ options then c.output else none

/-- None of the choices is no choice. -/
@[simp] theorem only_nil (c : Choices) : c.only [] = .empty := by
  simp [only, empty]

/-- An option of those chosen that was not given yet can be given. -/
theorem give_only (hvalue : c.value? o = some value) (hempty : o.hasValue = true → value ≠ "")
    (hnew : o ∉ front) : (c.only front).give o value = .ok (c.only (front ++ [o])) := by
  cases o with
  | verbose =>
    have hverbose : c.verbose = true := (Option.ite_none_right_eq_some.1 hvalue).1
    simp [give, has, set, only, hverbose, hnew]
  | python =>
    have hpython : c.python = some value := hvalue
    simp [give, has, set, only, hpython, hnew, hempty rfl]
  | pythonVersion =>
    have hversion : c.pythonVersion = some value := hvalue
    simp [give, has, set, only, hversion, hnew]
  | format =>
    obtain ⟨f, hf, rfl⟩ := Option.map_eq_some_iff.1 hvalue
    simp [give, has, set, only, hf, hnew, hempty rfl, Report.Format.ofWord?_word]
  | output =>
    have houtput : c.output = some value := hvalue
    simp [give, has, set, only, houtput, hnew, hempty rfl]
  | help => cases hvalue
  | version => cases hvalue

/-- Options given in front of a command and behind it are all given. Only those that say something
to the program stand in front. -/
theorem under_only (hfront : ∀ o ∈ front, o = .verbose ∨ o = .python) :
    (c.only back).under (c.only front) = c.only (front ++ back) := by
  have hversion : .pythonVersion ∉ front := fun h => by simpa using hfront _ h
  have hformat : .format ∉ front := fun h => by simpa using hfront _ h
  have houtput : .output ∉ front := fun h => by simpa using hfront _ h
  have hpython : ((if .python ∈ back then c.python else none) <|>
      if .python ∈ front then c.python else none) =
      if .python ∈ front ++ back then c.python else none := by
    by_cases hback : .python ∈ back <;> by_cases hboth : .python ∈ front <;>
      cases c.python <;> simp [hback, hboth]
  have hverbose : (c.verbose && back.contains .verbose || c.verbose && front.contains .verbose) =
      (c.verbose && (front ++ back).contains .verbose) := by
    rw [← Bool.and_or_distrib_left, List.contains_append, Bool.or_comm]
  simp only [under, only, hverbose, hpython, List.mem_append, hversion, hformat, houtput, false_or]

/-- When all chosen options were given there are no others. -/
theorem only_eq_self (h : ∀ o ∈ c.chosen, o ∈ front) : c.only front = c := by
  have hpart {α : Type} {o : Choice} (x : Option α) (hx : x.isSome = (c.value? o).isSome) :
      (if o ∈ front then x else none) = x := by
    split
    · rfl
    · next hnot =>
      have hnone : ¬(c.value? o).isSome = true := fun hsome => hnot (h o (mem_chosen.2 hsome))
      rw [← hx] at hnone
      exact (Option.not_isSome_iff_eq_none.1 hnone).symm
  have hverbose : (c.verbose && front.contains .verbose) = c.verbose := by
    cases hc : c.verbose with
    | false => rfl
    | true =>
      have hmem := h .verbose (mem_chosen.2 (by simp [value?, hc]))
      simpa using hmem
  have hformat : c.format.isSome = (c.value? .format).isSome := by simp [value?]
  simp only [only, hverbose, hpart c.python (o := .python) rfl, hpart c.output (o := .output) rfl,
    hpart c.pythonVersion (o := .pythonVersion) rfl, hpart c.format hformat]

end Choices

end CommandLine

end ScriptDeps
