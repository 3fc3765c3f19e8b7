import ScriptDeps.Proofs.CommandLine.Taking

/-!
# Command lines in any arrangement

What a command line asks for is said by the values of its options, by the command and by the script.
The order of the options, how each is written and which of them stand in front of the script do not
matter, and those that say something to the program may stand in front of the command as well. From
a script that the program is to run on, every word belongs to the script. Main statements:
`read_run` and `read_command`.
-/

namespace ScriptDeps.CommandLine

variable {c : Choices} {scope : Scope} {o : Choice} {script name : String}
  {options done front inner outer : List Choice} {before left right words : List String}
  {r : Reading}

/-! ## Options and their part of a command line -/

/-- Letters spell options of their scope. -/
theorem Letters.mem_choices {letters : List Char} (h : Letters c scope options letters)
    (ho : o ∈ options) : o ∈ scope.choices := by
  induction h with
  | nil => cases ho
  | cons mem _ _ _ ih =>
    obtain rfl | ho := List.mem_cons.1 ho
    · exact mem
    · exact ih ho

/-- Words spell options of their scope. -/
theorem Spells.mem_choices (h : Spells c scope options words) (ho : o ∈ options) :
    o ∈ scope.choices := by
  cases h with
  | name mem => rwa [List.mem_singleton.1 ho]
  | nameApart mem => rwa [List.mem_singleton.1 ho]
  | nameEquals mem => rwa [List.mem_singleton.1 ho]
  | letters turned => exact turned.mem_choices ho
  | lettersApart turned mem | lettersEquals turned mem | lettersAttached turned mem =>
    obtain ho | ho := List.mem_append.1 ho
    · exact turned.mem_choices ho
    · rwa [List.mem_singleton.1 ho]

/-- Options that are given are options of their scope. -/
theorem Gives.mem_choices (h : Gives c scope options words) (ho : o ∈ options) :
    o ∈ scope.choices := by
  induction h with
  | nil => cases ho
  | append first _ ih =>
    obtain ho | ho := List.mem_append.1 ho
    · exact first.mem_choices ho
    · exact ih ho

/-- In front of a command stand only options that say something to the program. -/
theorem Gives.eq_verbose_or_python (h : Gives c .program front before)
    (hchosen : ∀ o ∈ front, o ∈ c.chosen) (ho : o ∈ front) : o = .verbose ∨ o = .python := by
  have hmem := h.mem_choices ho
  have hsome := Choices.mem_chosen.1 (hchosen o ho)
  cases o with
  | verbose => exact .inl rfl
  | python => exact .inr rfl
  | help => cases hsome
  | version => cases hsome
  | _ => simp [Scope.choices] at hmem

/-! ## Running a script -/

/-- Settled options and a script make up a run of that script. -/
theorem runScript_settled (hr : r.Settled c done) (script : String) (arguments : List String) :
    runScript r script arguments = .ok ((c.only done).invoke (.run script arguments)) := by
  simp only [runScript, hr.settle_eq]
  rfl

/-- The first word that is neither an option nor a command is the script, and all behind it is for
the script. -/
theorem readProgram_script (hr : r.Settled c done) (hdash : ¬BeginsWith '-' script)
    (hcommand : ¬IsCommand script) (arguments : List String) :
    readProgram r (script :: arguments) =
      .ok ((c.only done).invoke (.run script arguments)) := by
  simp only [readProgram, isNone_and_eq_helpCommand fun _ => hcommand,
    lookup_commands fun _ => hcommand, Word.ofText_plain hdash]
  simp only [readPlain, hr.awaiting?_eq]
  exact runScript_settled hr script arguments

/-- Behind two dashes stands the script, whatever it looks like. -/
theorem readProgram_separator (hr : r.Settled c done) (script : String) (arguments : List String) :
    readProgram r ("--" :: script :: arguments) =
      .ok ((c.only done).invoke (.run script arguments)) := by
  have hseparator : Word.ofText "--" = .separator := by decide
  have hcommand : ¬IsCommand "--" := fun h => by simp [h.ofText] at hseparator
  simp only [readProgram, isNone_and_eq_helpCommand fun _ => hcommand,
    lookup_commands fun _ => hcommand, hseparator, readScript]
  exact runScript_settled hr script arguments

/-- Behind the options of the program, a word that names no command and no option is a script, and
so is any word behind a separator. All words after the script are its own. -/
theorem read_run (hbefore : Gives c .program options before) (hall : options.Perm c.chosen) :
    (∀ script rest, ¬BeginsWith '-' script → ¬IsCommand script →
      read (before ++ script :: rest) =
        .ok ⟨c.verbose, ⟨defaultVersion, c.python, defaultRunner⟩, .run script rest⟩) ∧
    ∀ script rest, read (before ++ "--" :: script :: rest) =
      .ok ⟨c.verbose, ⟨defaultVersion, c.python, defaultRunner⟩, .run script rest⟩ := by
  obtain ⟨r, hreads, hr⟩ := hbefore.reads_start (hall.nodup_iff.2 c.nodup_chosen)
  have honly : c.only options = c := Choices.only_eq_self fun o ho => hall.mem_iff.2 ho
  have hversion : c.pythonVersion = none := by
    refine Option.not_isSome_iff_eq_none.1 fun hsome => ?_
    have hchosen : Choice.pythonVersion ∈ c.chosen := Choices.mem_chosen.2 hsome
    exact absurd (hbefore.mem_choices (hall.mem_iff.2 hchosen)) (by decide)
  have hinvoke (task : Task) : (c.only options).invoke task =
      ⟨c.verbose, ⟨defaultVersion, c.python, defaultRunner⟩, task⟩ := by
    rw [honly, Choices.invoke, hversion]
    rfl
  refine ⟨fun script rest hdash hcommand => ?_, fun script rest => ?_⟩
  · rw [read, hreads.readProgram, readProgram_script hr hdash hcommand, hinvoke]
  · rw [read, hreads.readProgram, readProgram_separator hr, hinvoke]

/-- The script gets flags, a separator, the name of a command and an empty word. -/
theorem read_run_flags :
    read ["--python=p", "-v", "s.py", "-v", "--", "check", "", "--python"] =
      .ok ⟨true, ⟨defaultVersion, some "p", defaultRunner⟩,
        .run "s.py" ["-v", "--", "check", "", "--python"]⟩ ∧
    read ["--python=p", "-v", "--", "check", "-v"] =
      .ok ⟨true, ⟨defaultVersion, some "p", defaultRunner⟩, .run "check" ["-v"]⟩ := by
  let c : Choices := ⟨true, some "p", none, none, none⟩
  have hpython : c.Sets .python "p" := ⟨rfl, rfl, by decide⟩
  have hverbose : Letters c .program [.verbose] ['v'] := .cons (by decide) rfl ⟨rfl, rfl⟩ .nil
  have hbefore : Gives c .program [.python, .verbose] ["--python=p", "-v"] :=
    .append (.nameEquals (by decide) hpython) (.append (.letters hverbose (by decide)) .nil)
  have hrun := read_run hbefore (by decide)
  exact ⟨hrun.1 "s.py" _ (by decide) (by decide), hrun.2 "check" _⟩

/-! ## Commands -/

/-- Options in front of the script of a command and behind it are all given. -/
theorem readCommand_arranged (hscript : ¬BeginsWith '-' script) (hleft : Gives c scope inner left)
    (hright : Gives c scope outer right) (hnodup : (inner ++ outer).Nodup) :
    readCommand scope .start none (left ++ script :: right) =
      .ok (c.only (inner ++ outer), script) := by
  obtain ⟨r₁, hreads₁, hr₁⟩ := hleft.reads_start hnodup.of_append_left
  obtain ⟨r₂, hreads₂, hr₂⟩ := hright.reads Reading.Settled.mk_only hnodup
  have hend : readCommand scope ⟨c.only inner, none⟩ (some script) (right ++ []) =
      .ok (c.only (inner ++ outer), script) := by
    rw [hreads₂.readCommand, readCommand, finish, hr₂.settle_eq]
    rfl
  rw [List.append_nil] at hend
  rw [hreads₁.readCommand]
  simp only [readCommand, Word.ofText_plain hscript, hr₁.awaiting?_eq, hr₁.settle_eq]
  exact hend

/-- Behind the name of a command stands what is for the command. -/
theorem readProgram_command (hr : r.awaiting? = none) (hname : commands.lookup name = some scope) :
    readProgram r (name :: words) = readUnder r scope words := by
  have hnone : commands.lookup helpCommand = none := by decide
  have hhelp : (name == helpCommand) = false := by
    refine Bool.eq_false_iff.2 fun h => ?_
    rw [eq_of_beq h, hnone] at hname
    cases hname
  simp only [readProgram, hr, hhelp, hname]
  rfl

/-- What a command line with a command asks for depends on the values of its options, the command
and the script only, and one command has two names. -/
theorem read_command (hname : commands.lookup name = some scope)
    (hscript : ¬BeginsWith '-' script) (hbefore : Gives c .program front before)
    (hleft : Gives c scope inner left) (hright : Gives c scope outer right)
    (hall : (front ++ (inner ++ outer)).Perm c.chosen) :
    read (before ++ name :: (left ++ script :: right)) =
      .ok ⟨c.verbose, ⟨c.pythonVersion.getD defaultVersion, c.python, defaultRunner⟩,
        scope.task c script⟩ ∧
    ∀ words, read (before ++ "upgrade" :: words) = read (before ++ "add" :: words) := by
  have hnodup := hall.nodup_iff.2 c.nodup_chosen
  obtain ⟨r, hreads, hr⟩ := hbefore.reads_start hnodup.of_append_left
  refine ⟨?_, fun words => ?_⟩
  · -- The command begins with no options of its own; those in front of it are joined at the end.
    have hfront : ∀ o ∈ front, o = .verbose ∨ o = .python := fun o =>
      hbefore.eq_verbose_or_python fun o ho => hall.mem_iff.1 (List.mem_append_left _ ho)
    have honly : (c.only (inner ++ outer)).under (c.only front) = c := by
      rw [Choices.under_only hfront]
      exact Choices.only_eq_self fun o ho => hall.mem_iff.2 ho
    rw [read, hreads.readProgram, readProgram_command hr.awaiting?_eq hname, readUnder,
      readCommand_arranged hscript hleft hright hnodup.of_append_right, hr.settle_eq]
    simp only [bind, Except.bind, honly]
    rfl
  · have hadd : commands.lookup "add" = some .add := by decide
    have hupgrade : commands.lookup "upgrade" = some .add := by decide
    rw [read, read, hreads.readProgram, hreads.readProgram,
      readProgram_command hr.awaiting?_eq hupgrade, readProgram_command hr.awaiting?_eq hadd]

/-- An option in front of the command, a cluster in front of the script, and options behind it. -/
theorem read_command_cluster :
    read ["--python=p", "check", "-vfjson", "s.py", "-o", "out", "--python-version", "3.12"] =
      .ok ⟨true, ⟨"3.12", some "p", defaultRunner⟩, .check "s.py" .json (some "out")⟩ ∧
    ∀ words, read ("--python=p" :: "upgrade" :: words) = read ("--python=p" :: "add" :: words) := by
  let c : Choices := ⟨true, some "p", some "3.12", some .json, some "out"⟩
  have hpython : c.Sets .python "p" := ⟨rfl, rfl, by decide⟩
  have hversion : c.Sets .pythonVersion "3.12" := ⟨rfl, rfl, by decide⟩
  have hformat : c.Sets .format "json" := ⟨rfl, rfl, by decide⟩
  have houtput : c.Sets .output "out" := ⟨rfl, rfl, by decide⟩
  have hverbose : Letters c .check [.verbose] ['v'] := .cons (by decide) rfl ⟨rfl, rfl⟩ .nil
  have hname : commands.lookup "check" = some .check := by decide
  have hbefore : Gives c .program [.python] ["--python=p"] :=
    .append (.nameEquals (by decide) hpython) .nil
  have hleft : Gives c .check [.verbose, .format] ["-vfjson"] :=
    .append (.lettersAttached hverbose (by decide) rfl hformat (by decide)) .nil
  have hright : Gives c .check [.output, .pythonVersion]
      ["-o", "out", "--python-version", "3.12"] :=
    .append (.lettersApart .nil (by decide) rfl houtput (by decide))
      (.append (.nameApart (by decide) hversion (by decide)) .nil)
  exact read_command hname (by decide) hbefore hleft hright (by decide)

end ScriptDeps.CommandLine
