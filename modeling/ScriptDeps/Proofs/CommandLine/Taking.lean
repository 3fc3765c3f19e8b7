import Mathlib.Data.List.Nodup
import ScriptDeps.Proofs.CommandLine.Spelling

/-!
# Reading options

Words that give options are read one after another, whoever reads them: the program in front of a
command, or a command. After each of them the options given so far are those whose words were read.
Main statements: `Reads.readCommand`, `Reads.readProgram` and `Gives.reads`.
-/

namespace ScriptDeps.CommandLine

/-- A word is the name of a command. -/
def IsCommand (word : String) : Prop := word = helpCommand ∨ (commands.lookup word).isSome = true

instance (word : String) : Decidable (IsCommand word) :=
  inferInstanceAs (Decidable (word = helpCommand ∨ (commands.lookup word).isSome = true))

/-- A word is read as an option, or as the value that the last option waits for. -/
inductive Takes (scope : Scope) (r : Reading) : String → Reading → Prop where
  /-- The name of an option. -/
  | long {word : String} {name : List Char} {value : Option (List Char)} {o : Choice}
    {r' : Reading} (looks : Word.ofText word = .long name value)
    (named : scope.ofName? name = some o) (taken : r.takeLong scope o value = .ok r') :
    Takes scope r word r'
  /-- The letters of options. In front of a command each of them has to be one. -/
  | cluster {word : String} {letters : List Char} {r' : Reading}
    (looks : Word.ofText word = .cluster letters)
    (known : scope = .program → letters.all (scope.ofLetter? · |>.isSome) = true)
    (taken : r.takeCluster scope letters = .ok r') : Takes scope r word r'
  /-- The value of an option. -/
  | value {word : String} {o : Choice} (looks : Word.ofText word = .plain)
    (waits : r.awaiting? = some o) : Takes scope r word (r.supply o word)

/-- Words are read, one after another, as options and their values. -/
inductive Reads (scope : Scope) : Reading → List String → Reading → Prop where
  /-- No word. -/
  | nil {r : Reading} : Reads scope r [] r
  /-- One more word. -/
  | cons {r r' r'' : Reading} {word : String} {words : List String}
    (first : Takes scope r word r') (others : Reads scope r' words r'') :
    Reads scope r (word :: words) r''

/-- The options read so far are some of those chosen, and none waits for its value. -/
structure Reading.Settled (r : Reading) (c : Choices) (done : List Choice) : Prop where
  /-- Those options were read. -/
  settle_eq : r.settle = .ok (c.only done)
  /-- No option waits. -/
  awaiting?_eq : r.awaiting? = none

variable {c : Choices} {scope : Scope} {o : Choice} {value word : String} {l : Char}
  {options done : List Choice} {letters s : List Char} {words rest : List String}
  {script : Option String} {r r' r'' : Reading}

/-! ## One word -/

/-- The name of a command does not look like an option. -/
theorem IsCommand.ofText (h : IsCommand word) : Word.ofText word = .plain := by
  have hnames : ∀ p ∈ commands, Word.ofText p.1 = .plain := by decide
  obtain rfl | h := h
  · decide
  · obtain ⟨p, hp, hword⟩ := List.lookup_isSome_iff.1 h
    rw [eq_of_beq hword]
    exact hnames p hp

/-- A word is no request for help if it is none of the commands, or a value is awaited. -/
theorem isNone_and_eq_helpCommand (h : r.awaiting? = none → ¬IsCommand word) :
    (r.awaiting?.isNone && word == helpCommand) = false := by
  refine Bool.eq_false_iff.2 fun hhelp => ?_
  obtain ⟨hnone, hword⟩ := (Bool.and_eq_true _ _).mp hhelp
  exact h (Option.isNone_iff_eq_none.1 hnone) (.inl (eq_of_beq hword))

/-- A word that is none of the commands, or stands where a value is awaited, names no command. -/
theorem lookup_commands (h : r.awaiting? = none → ¬IsCommand word) :
    (if r.awaiting?.isNone then commands.lookup word else none) = none := by
  split
  · next hnone =>
    refine Option.not_isSome_iff_eq_none.1 fun hsome => ?_
    exact h (Option.isNone_iff_eq_none.1 hnone) (.inr hsome)
  · rfl

/-- A reader of the options of a command goes on behind a word that was taken. -/
theorem Takes.readCommand (h : Takes scope r word r') :
    readCommand scope r script (word :: rest) = readCommand scope r' script rest := by
  cases h with
  | long looks named taken =>
    simp only [CommandLine.readCommand, looks, named, taken]
    rfl
  | cluster looks known taken =>
    simp only [CommandLine.readCommand, looks, taken]
    rfl
  | value looks waits => simp only [CommandLine.readCommand, looks, waits]

/-- A word that is taken is no command, unless a value is awaited. -/
theorem Takes.not_isCommand (h : Takes scope r word r') : r.awaiting? = none → ¬IsCommand word := by
  intro hnone hword
  -- The names of commands are plain words, and those are read only as values that are waited for.
  cases h with
  | long looks => simp [hword.ofText] at looks
  | cluster looks => simp [hword.ofText] at looks
  | value looks waits => simp [hnone] at waits

/-- A reader of the options of the program goes on behind a word that was taken. -/
theorem Takes.readProgram (h : Takes .program r word r') :
    readProgram r (word :: rest) = readProgram r' rest := by
  simp only [CommandLine.readProgram, isNone_and_eq_helpCommand h.not_isCommand,
    lookup_commands h.not_isCommand]
  cases h with
  | long looks named taken =>
    simp only [looks, named, taken]
    rfl
  | cluster looks known taken =>
    simp only [looks, known rfl, taken]
    rfl
  | value looks waits =>
    simp only [looks, readPlain, waits]
    rfl

/-! ## Several words -/

/-- A reader of the options of a command goes on behind the words that were read. -/
theorem Reads.readCommand (h : Reads scope r words r') :
    readCommand scope r script (words ++ rest) = readCommand scope r' script rest := by
  induction h with
  | nil => rfl
  | cons first _ ih => exact first.readCommand.trans ih

/-- A reader of the options of the program goes on behind the words that were read. -/
theorem Reads.readProgram (h : Reads .program r words r') :
    readProgram r (words ++ rest) = readProgram r' rest := by
  generalize hscope : Scope.program = scope at h
  induction h with
  | nil => rfl
  | cons first _ ih =>
    subst hscope
    exact first.readProgram.trans ih

/-- Words that are read one after another are read together. -/
theorem Reads.append (h : Reads scope r words r') (hrest : Reads scope r' rest r'') :
    Reads scope r (words ++ rest) r'' := by
  induction h with
  | nil => exact hrest
  | cons first _ ih => exact .cons first (ih hrest)

/-! ## The options read -/

namespace Reading.Settled

/-- A state with exactly some of the choices is settled. -/
theorem mk_only : Settled ⟨c.only done, none⟩ c done := ⟨rfl, rfl⟩

/-- At the start no choice has been made. -/
theorem start : Settled .start c [] := ⟨by rw [Choices.only_nil]; rfl, rfl⟩

/-- An option that is chosen and has not been given yet is taken with its value. -/
theorem take (h : r.Settled c done) (hvalue : c.value? o = some (String.ofList s))
    (hempty : o.hasValue = true → String.ofList s ≠ "") (hnew : o ∉ done) :
    r.take scope o s = .ok ⟨c.only (done ++ [o]), none⟩ := by
  have hgive := Choices.give_only hvalue hempty hnew
  cases o with
  | help => cases hvalue
  | version => cases hvalue
  | _ =>
    simp only [Reading.take, h.settle_eq, bind, Except.bind, hgive]
    rfl

/-- An option without a value is taken. -/
theorem turn (h : r.Settled c done) (turns : c.Turns o) (hnew : o ∉ done) :
    r.take scope o [] = .ok ⟨c.only (done ++ [o]), none⟩ :=
  h.take turns.value?_eq (fun hvalue => by simp [turns.hasValue] at hvalue) hnew

/-- An option with a value is taken with the value in the same word. -/
theorem assign (h : r.Settled c done) (sets : c.Sets o value) (hnew : o ∉ done) :
    r.take scope o value.toList = .ok ⟨c.only (done ++ [o]), none⟩ := by
  refine h.take ?_ (fun _ => ?_) hnew
  · rw [String.ofList_toList, sets.value?_eq]
  · rw [String.ofList_toList]
    exact sets.ne_empty

/-- An option whose value comes in the next word is awaited. -/
theorem await (h : r.Settled c done) : r.await o = .ok ⟨c.only done, some (o, none)⟩ := by
  simp only [Reading.await, h.settle_eq]
  rfl

/-- The next word supplies the value. -/
theorem supply (sets : c.Sets o value) (hnew : o ∉ done) :
    (Reading.supply ⟨c.only done, some (o, none)⟩ o value).Settled c (done ++ [o]) where
  settle_eq := by
    simp only [Reading.supply, Reading.settle,
      Choices.give_only sets.value?_eq (fun _ => sets.ne_empty) hnew]
    rfl
  awaiting?_eq := rfl

end Reading.Settled

/-! ## Letters -/

/-- A letter of an option without a value is taken, and the others after it. -/
theorem takeCluster_turn (hmem : o ∈ scope.choices) (hletter : o.letter? = some l)
    (hvalue : o.hasValue = false) (htake : r.take scope o [] = .ok r') :
    r.takeCluster scope (l :: s) = r'.takeCluster scope s := by
  simp only [Reading.takeCluster, Scope.ofLetter?_letter hmem hletter, hvalue, htake]
  rfl

/-- A letter at the end of a cluster awaits its value. -/
theorem takeCluster_await (hmem : o ∈ scope.choices) (hletter : o.letter? = some l)
    (hvalue : o.hasValue = true) : r.takeCluster scope [l] = r.await o := by
  simp only [Reading.takeCluster, Scope.ofLetter?_letter hmem hletter, hvalue]
  rfl

/-- An equals sign behind a letter is not part of its value. -/
theorem takeCluster_equals (hmem : o ∈ scope.choices) (hletter : o.letter? = some l)
    (hvalue : o.hasValue = true) : r.takeCluster scope (l :: '=' :: s) = r.take scope o s := by
  simp only [Reading.takeCluster, Scope.ofLetter?_letter hmem hletter, hvalue]
  rfl

/-- What stands behind a letter is its value. -/
theorem takeCluster_attached (hmem : o ∈ scope.choices) (hletter : o.letter? = some l)
    (hvalue : o.hasValue = true) (hne : s ≠ []) (hequals : s.head? ≠ some '=') :
    r.takeCluster scope (l :: s) = r.take scope o s := by
  simp only [Reading.takeCluster, Scope.ofLetter?_letter hmem hletter, hvalue, if_true]
  split <;> simp_all

namespace Letters

/-- Letters with something behind them, or some letters, are a cluster. -/
theorem ofText (h : Letters c scope options letters) (hne : letters ++ s ≠ [])
    (hdash : s.head? ≠ some '-') :
    Word.ofText (String.ofList ('-' :: (letters ++ s))) = .cluster (letters ++ s) := by
  refine Word.ofText_cluster hne ?_
  cases h with
  | nil => exact hdash
  | cons _ letter => simpa using Choice.letter_ne_dash letter

/-- The letters are those of options in the scope. -/
theorem known (h : Letters c scope options letters) :
    letters.all (scope.ofLetter? · |>.isSome) = true := by
  induction h with
  | nil => rfl
  | cons mem letter _ _ ih =>
    simp only [List.all_cons, Scope.ofLetter?_letter mem letter, ih]
    rfl

/-- Letters of options without values are taken one after another. -/
theorem takeCluster (h : Letters c scope options letters) (hr : r.Settled c done)
    (hnodup : (done ++ options).Nodup) : ∃ r' : Reading, r'.Settled c (done ++ options) ∧
      ∀ s, r.takeCluster scope (letters ++ s) = r'.takeCluster scope s := by
  -- What was taken moves from `options` to `done`, which is why both stand in `hnodup`.
  induction h generalizing r done with
  | nil => exact ⟨r, by rwa [List.append_nil], fun _ => rfl⟩
  | @cons o l options letters mem letter turns others ih =>
    rw [List.append_cons] at hnodup ⊢
    have hnew : o ∉ done := fun hmem =>
      List.disjoint_of_nodup_append hnodup.of_append_left hmem List.mem_cons_self
    obtain ⟨r', hr', hrest⟩ := ih Reading.Settled.mk_only hnodup
    refine ⟨r', hr', fun s => ?_⟩
    rw [List.cons_append, takeCluster_turn mem letter turns.hasValue (hr.turn turns hnew)]
    exact hrest s

/-- Letters and one more, of an option with a value, are read when that one is taken behind the
others. In front of a command no option with a value has a letter. -/
theorem takes (h : Letters c scope options letters) (hr : r.Settled c done)
    (hnodup : (done ++ options).Nodup) (hmem : o ∈ scope.choices) (hletter : o.letter? = some l)
    (hvalue : o.hasValue = true) : ∃ r₁ : Reading, r₁.Settled c (done ++ options) ∧
      ∀ s r', r₁.takeCluster scope (l :: s) = .ok r' →
        Takes scope r (String.ofList ('-' :: (letters ++ l :: s))) r' := by
  obtain ⟨r₁, hr₁, htaken⟩ := h.takeCluster hr hnodup
  refine ⟨r₁, hr₁, fun s r' hlast => .cluster (h.ofText (by simp) ?_) ?_ ?_⟩
  · simpa using Choice.letter_ne_dash hletter
  · rintro rfl
    simp [Scope.letter?_eq_none_of_hasValue hmem hvalue] at hletter
  · rw [htaken, hlast]

end Letters

/-! ## Options -/

/-- Words that give options are read, and the options are given then. -/
theorem Spells.reads (h : Spells c scope options words) (hr : r.Settled c done)
    (hnodup : (done ++ options).Nodup) :
    ∃ r' : Reading, Reads scope r words r' ∧ r'.Settled c (done ++ options) := by
  have hnew {front : List Choice} {o : Choice} (hall : (front ++ [o]).Nodup) : o ∉ front :=
    fun hmem => List.disjoint_of_nodup_append hall hmem List.mem_cons_self
  cases h with
  | name mem turns =>
    refine ⟨_, .cons (.long (Word.ofText_name _) (Scope.ofName?_name mem) ?_) .nil,
      Reading.Settled.mk_only⟩
    simp only [Reading.takeLong, turns.hasValue]
    exact hr.turn turns (hnew hnodup)
  | nameApart mem sets plain =>
    refine ⟨_, .cons (.long (Word.ofText_name _) (Scope.ofName?_name mem) ?_)
      (.cons (.value (Word.ofText_plain plain) rfl) .nil),
      Reading.Settled.supply sets (hnew hnodup)⟩
    simp only [Reading.takeLong, sets.hasValue]
    exact hr.await
  | nameEquals mem sets =>
    refine ⟨_, .cons (.long (Word.ofText_nameEquals _ _) (Scope.ofName?_name mem) ?_) .nil,
      Reading.Settled.mk_only⟩
    simp only [Reading.takeLong, sets.hasValue]
    exact hr.assign sets (hnew hnodup)
  | @letters options letters turned ne_nil =>
    obtain ⟨r', hr', htaken⟩ := turned.takeCluster hr hnodup
    have hlooks := turned.ofText (s := []) (by simpa using ne_nil) (by simp)
    have hcluster := htaken []
    rw [List.append_nil] at hlooks hcluster
    exact ⟨r', .cons (.cluster hlooks (fun _ => turned.known) hcluster) .nil, hr'⟩
  | lettersApart turned mem letter sets plain =>
    rw [← List.append_assoc] at hnodup ⊢
    -- The last letter waits, and the second word is its value.
    obtain ⟨r₁, hr₁, htakes⟩ := turned.takes hr hnodup.of_append_left mem letter sets.hasValue
    have hlast := (takeCluster_await mem letter sets.hasValue).trans hr₁.await
    exact ⟨_, .cons (htakes [] _ hlast) (.cons (.value (Word.ofText_plain plain) rfl) .nil),
      Reading.Settled.supply sets (hnew hnodup)⟩
  | lettersEquals turned mem letter sets =>
    rw [← List.append_assoc] at hnodup ⊢
    obtain ⟨r₁, hr₁, htakes⟩ := turned.takes hr hnodup.of_append_left mem letter sets.hasValue
    have hlast := (takeCluster_equals mem letter sets.hasValue).trans
      (hr₁.assign sets (hnew hnodup))
    exact ⟨_, .cons (htakes _ _ hlast) .nil, Reading.Settled.mk_only⟩
  | lettersAttached turned mem letter sets plain =>
    rw [← List.append_assoc] at hnodup ⊢
    obtain ⟨r₁, hr₁, htakes⟩ := turned.takes hr hnodup.of_append_left mem letter sets.hasValue
    have hne := mt String.toList_eq_nil_iff.1 sets.ne_empty
    have hlast := (takeCluster_attached mem letter sets.hasValue hne plain).trans
      (hr₁.assign sets (hnew hnodup))
    exact ⟨_, .cons (htakes _ _ hlast) .nil, Reading.Settled.mk_only⟩

/-- Words that give several options are read, and all the options are given then. -/
theorem Gives.reads (h : Gives c scope options words) (hr : r.Settled c done)
    (hnodup : (done ++ options).Nodup) :
    ∃ r' : Reading, Reads scope r words r' ∧ r'.Settled c (done ++ options) := by
  induction h generalizing r done with
  | nil => exact ⟨r, .nil, by rwa [List.append_nil]⟩
  | append first _ ih =>
    rw [← List.append_assoc] at hnodup ⊢
    obtain ⟨r₁, hfirst, hr₁⟩ := first.reads hr hnodup.of_append_left
    obtain ⟨r₂, hothers, hr₂⟩ := ih hr₁ hnodup
    exact ⟨r₂, hfirst.append hothers, hr₂⟩

/-- Words that give options are read from the beginning, and the options are given then. -/
theorem Gives.reads_start (h : Gives c scope options words) (hnodup : options.Nodup) :
    ∃ r : Reading, Reads scope .start words r ∧ r.Settled c options :=
  h.reads Reading.Settled.start hnodup

end ScriptDeps.CommandLine
