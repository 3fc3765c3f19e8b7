import ScriptDeps.Proofs.Analysis.Classification
import ScriptDeps.Proofs.Command.Agreement
import ScriptDeps.Proofs.Command.Traces

/-!
# What commands do to files

A run and a check that shows its report leave the files as they are. A check with a file for its
report writes that file, once it has the report; an addition writes the script, once it has read it
and knows what it needs. Whatever fails leaves the files as they are. Main statement:
`files_execute`.
-/

namespace ScriptDeps

open Machine Attempt

namespace CommandLine.Task

/-- The script that a task is about. -/
def script : Task → String
  | run script _ => script
  | check script _ _ => script
  | add script => script

/-- The one change that a task may make to the files of a machine. -/
def Writes (console : Console) (settings : Settings) (m : Machine) (files : FileSystem) :
    Task → Prop
  | run _ _ => False
  | check _ _ none => False
  | check script format (some path) => ∃ report m' place,
    (ExceptT.run (Command.rendered console settings format script)).run m = (.ok report, m') ∧
    m.files.target m.directory path = .ok place ∧
    m.files.Replaced files place (Text.encode (report ++ "\n").toList)
  | add script => ∃ place content mode text u,
    m.files.locate m.directory script = .ok (place, .file content mode) ∧
    mode.readable = true ∧ Text.decode content = .ok text ∧
    m.modulesOf settings.interpreter = .ok u ∧
    m.files.Replaced files place (Text.encode (updated u settings.pythonVersion text))

end CommandLine.Task

/-- A task that ends with a code has left the files as they were, or it has succeeded and made the
change that it may make. -/
def Frame (console : Console) (settings : Settings) (task : CommandLine.Task) (m : Machine)
    (code : Nat) (files : FileSystem) : Prop :=
  files = m.files ∨ code = 0 ∧ task.Writes console settings m files

variable {m : Machine} {console : Console} {settings : Settings} {script : String}

namespace Machine

/-- Nothing but events and starts has been added. -/
def Follows (m m' : Machine) : Prop := ∃ events calls, m' = m.after events calls

/-- The files are those from before. -/
theorem Follows.files {m' : Machine} (h : Follows m m') : m'.files = m.files := by
  obtain ⟨_, _, rfl⟩ := h
  rfl

/-- Paths begin where they did before. -/
theorem Follows.directory {m' : Machine} (h : Follows m m') : m'.directory = m.directory := by
  obtain ⟨_, _, rfl⟩ := h
  rfl

/-- For one console, two runs behind a machine stay the same, and nothing is added there but events
and starts. -/
theorem trace_follows (console : Console) (before : Machine) :
    Trace console console fun m m' => m' = m ∧ Follows before m where
  differInEvents := by
    rintro _ m ⟨rfl, -⟩
    exact ⟨m, [], [], after_nil.symm, after_nil.symm⟩
  after := by
    rintro _ m events calls ⟨rfl, events', calls', rfl⟩
    exact ⟨rfl, _, _, after_after⟩

/-- A step that keeps every relation of two runs adds nothing but events and starts. -/
theorem follows_of_within {α : Type} {x : Step α} {m : Machine}
    (h : Within (fun m₁ m₂ => m₂ = m₁ ∧ Follows m m₁) x x) : Follows m (x.run m).2 :=
  (h m m ⟨rfl, [], [], after_nil.symm⟩).2.2

end Machine

namespace Command

/-! ## Checking -/

/-- A report that has a file is written once it is made up. -/
theorem run_check_output (format : Report.Format) (path : String) (m : Machine) :
    (ExceptT.run (check console settings format (some path) script)).run m =
      match (ExceptT.run (rendered console settings format script)).run m with
      | (.error e, m') => (.error e, m')
      | (.ok report, m') =>
        match m'.files.write m'.directory path (Text.encode (report ++ "\n").toList) with
        | .error e => (.error (.output e), m')
        | .ok files => (.ok 0, { m' with files }.after
          (console.sink.events [⟨.verbose, s!"Output written to: {path}"⟩]) []) := by
  rw [check, run_bind_eq]
  rcases (ExceptT.run (rendered console settings format script)).run m with ⟨_ | report, m'⟩
  · rfl
  · dsimp only
    rw [run_bind_eq, run_attempt_eq, run_writeText]
    cases m'.files.write m'.directory path (Text.encode (report ++ "\n").toList) with
    | error e => rfl
    | ok files =>
      dsimp only
      rw [after, List.append_nil]
      rfl

/-- A check may write the file for its report, and no other. -/
theorem frame_check (format : Report.Format) (output : Option String)
    (hscript : isAddress script = false) {result : Except Failure Nat} {m' : Machine}
    (h : (ExceptT.run (check console settings format output script)).run m = (result, m')) :
    Frame console settings (.check script format output) m (codeOf result) m'.files := by
  cases output with
  | none =>
    have hshown : Follows m ((ExceptT.run (check console settings format none script)).run m).2 :=
      follows_of_within (keeps_check_shown (trace_follows console m) format (by simp [hscript]))
    rw [h] at hshown
    exact .inl hshown.files
  | some path =>
    have hrendered : Follows m ((ExceptT.run (rendered console settings format script)).run m).2 :=
      follows_of_within (keeps_rendered (trace_follows console m) format (by simp [hscript]))
    rw [run_check_output] at h
    split at h
    next e m₁ hrun =>
      obtain ⟨rfl, rfl⟩ := Prod.mk.inj h
      rw [hrun] at hrendered
      exact .inl hrendered.files
    next report m₁ hrun =>
      rw [hrun] at hrendered
      rw [hrendered.files, hrendered.directory] at h
      split at h
      · obtain ⟨rfl, rfl⟩ := Prod.mk.inj h
        exact .inl hrendered.files
      next files hwrite =>
        obtain ⟨rfl, rfl⟩ := Prod.mk.inj h
        obtain ⟨place, htarget, hreplaced⟩ := FileSystem.replaced_of_write hwrite
        exact .inr ⟨rfl, report, m₁, place, hrun, htarget, hreplaced⟩

/-! ## Adding -/

/-- An attempt that ends without touching files leaves those from before. -/
theorem frame_of_ends {task : CommandLine.Task} {work : Attempt Nat} {calls : List Call}
    {result result' : Except Failure Nat} {m' : Machine} (h : Ends work m result calls)
    (hrun : (ExceptT.run work).run m = (result', m')) :
    Frame console settings task m (codeOf result') m'.files := by
  obtain ⟨events, hends⟩ := h
  obtain ⟨-, rfl⟩ := Prod.mk.inj (hends.symm.trans hrun)
  exact .inl rfl

/-- An addition may write its script, and no other file. -/
theorem frame_add (hscript : isAddress script = false) {result : Except Failure Nat}
    {m' : Machine} (h : (ExceptT.run (add console settings script)).run m = (result, m')) :
    Frame console settings (.add script) m (codeOf result) m'.files := by
  cases htext : m.textAt script with
  | error e => exact frame_of_ends (ends_add_unread hscript htext) h
  | ok text =>
    cases hu : m.modulesOf settings.interpreter with
    | error e => exact frame_of_ends (ends_add_unknown hscript htext hu) h
    | ok u =>
      by_cases hsame : updated u settings.pythonVersion text = text
      · exact frame_of_ends (ends_add_same hscript htext hu hsame) h
      · cases hwrite : m.files.write m.directory script
            (Text.encode (updated u settings.pythonVersion text)) with
        | error e => exact frame_of_ends (ends_add_refused hscript htext hu hsame hwrite) h
        | ok files =>
          obtain ⟨_, _, hrun⟩ := run_add_written hscript htext hu hsame hwrite
          obtain ⟨rfl, rfl⟩ := Prod.mk.inj (hrun.symm.trans h)
          obtain ⟨content, hread, hdecode⟩ := textAt_eq_ok_iff.1 htext
          obtain ⟨place, mode, hplace, hreadable⟩ := FileSystem.read_eq_ok_iff.1 hread
          obtain ⟨target, htarget, hreplaced⟩ := FileSystem.replaced_of_write hwrite
          -- the script is written where it was read
          obtain ⟨rfl, -⟩ := FileSystem.target_of_locate hplace htarget
          exact .inr
            ⟨rfl, place, content, mode, text, u, hplace, hreadable, hdecode, hu, hreplaced⟩

/-! ## All commands -/

/-- No task changes more files than it may. -/
theorem frame_perform {task : CommandLine.Task} (hscript : isAddress task.script = false)
    {result : Except Failure Nat} {m' : Machine}
    (h : (ExceptT.run (perform console settings task)).run m = (result, m')) :
    Frame console settings task m (codeOf result) m'.files := by
  cases task with
  | run script arguments =>
    have hlocal (r : Machine → Machine → Prop) : isAddress script = true → IgnoresFiles r :=
      fun haddress => absurd (hscript.symm.trans haddress) Bool.false_ne_true
    have hrun : Follows m
        ((ExceptT.run (perform console settings (.run script arguments))).run m).2 :=
      follows_of_within (keeps_run (trace_follows console m) arguments (hlocal _))
    rw [h] at hrun
    exact .inl hrun.files
  | check script format output => exact frame_check format output hscript h
  | add script => exact frame_add hscript h

/-- Telling of a failure touches no files. -/
theorem run_conclude (console : Console) {work : Attempt Nat} {result : Except Failure Nat}
    {m' : Machine} (h : (ExceptT.run work).run m = (result, m')) :
    ∃ events, (conclude console work).run m = (codeOf result, m'.after events []) := by
  rw [conclude, run_bind, h]
  cases result with
  | ok code => exact ⟨[], by rw [after_nil]; rfl⟩
  | error e => exact (Leaves.say _ _ _ _).bind_quiet fun _ => .pure 1 _

end Command

/-- An invocation ends with the code of its task, and leaves the files behind that its task does. -/
theorem code_and_files_execute (i : CommandLine.Invocation) (useColors : Bool)
    {result : Except Failure Nat} {m' : Machine}
    (h : (ExceptT.run (Command.perform ⟨i.verbose, useColors⟩ i.settings i.task)).run m =
      (result, m')) :
    ((execute useColors (.ok i)).run m).1 = codeOf result ∧
      ((execute useColors (.ok i)).run m).2.files = m'.files := by
  obtain ⟨events, hconclude⟩ := Command.run_conclude ⟨i.verbose, useColors⟩ h
  rw [execute, hconclude]
  exact ⟨rfl, rfl⟩

/-- What an invocation on a local script does to the files: nothing if it runs the script, shows a
report or fails, and else it may write the one file that its task names. -/
theorem files_execute (i : CommandLine.Invocation) (hscript : isAddress i.task.script = false)
    (useColors : Bool) (m : Machine) :
    ((execute useColors (.ok i)).run m).2.files = m.files ∨
      ((execute useColors (.ok i)).run m).1 = 0 ∧
        i.task.Writes ⟨i.verbose, useColors⟩ i.settings m
          ((execute useColors (.ok i)).run m).2.files := by
  rcases hrun : (ExceptT.run (Command.perform ⟨i.verbose, useColors⟩ i.settings i.task)).run m with
    ⟨result, m'⟩
  obtain ⟨hcode, hfiles⟩ := code_and_files_execute i useColors hrun
  rw [hcode, hfiles]
  exact Command.frame_perform hscript hrun

/-! ## An addition that writes, and two that do not -/

section

variable {text : String}

/-- A script that may be written is. -/
private theorem run_add_hostOf (console : Console)
    (h : updated .bundled defaultVersion text.toList ≠ text.toList) :
    let files := (hostOf .new text).files.put ["s.py"]
      (Text.encode (updated .bundled defaultVersion text.toList))
    ∃ events calls, (ExceptT.run (Command.add console .default "s.py")).run (hostOf .new text) =
      (.ok 0, { hostOf .new text with files }.after events calls) := by
  refine Command.run_add_written (by decide) (textAt_hostOf rfl text) (u := .bundled) rfl h ?_
  rw [FileSystem.write, show (hostOf .new text).directory = [] from rfl, target_hostOf]
  rfl

/-- A script that may only be read is not. -/
private theorem ends_add_readOnly
    (h : updated .bundled defaultVersion text.toList ≠ text.toList) :
    Ends (Command.add console .default "s.py") (hostOf ⟨true, false, none⟩ text)
      (.error (.write "s.py" .denied)) [] := by
  refine Command.ends_add_refused (by decide) (textAt_hostOf rfl text) (u := .bundled) rfl h ?_
  rw [FileSystem.write, show (hostOf ⟨true, false, none⟩ text).directory = [] from rfl,
    target_hostOf]
  rfl

/-- Without its interpreter nothing is written. -/
private theorem ends_add_noInterpreter :
    Ends (Command.add console ⟨defaultVersion, some "python9", defaultRunner⟩ "s.py")
      (hostOf .new text) (.error (.probe (.spawn "python9" .notFound))) [] := by
  have hnul : ("python9" :: probeArguments).any (·.toList.contains '\x00') = false := by
    decide +kernel
  have hfind : (hostOf .new text).findProgram "python9" = .error .notFound := rfl
  have hcallee : (hostOf .new text).callee "python9" probeArguments = .error .notFound := by
    rw [callee, hnul, if_neg Bool.false_ne_true, hfind]
  have hprobes : (hostOf .new text).probesOf (some "python9") = [] := by
    rw [probesOf, Option.elim_some, startsOf, hcallee]
  rw [← hprobes]
  refine Command.ends_add_unknown (by decide) (textAt_hostOf rfl text) ?_
  rw [modulesOf, outcomeOf, hcallee]

/-- A script that needs one package gets a block that lists it. -/
private theorem updated_requests :
    updated .bundled defaultVersion "import requests\n".toList = ("# /// script\n" ++
      "# requires-python = \">=3.13\"\n" ++ "# dependencies = [\n" ++ "#     \"requests\",\n" ++
      "# ]\n" ++ "# ///\n" ++ "import requests\n").toList := by
  have hblock : (Analysis.ofSource .bundled "import requests\n".toList).1.block defaultVersion =
      Block.generate ⟨["requests"]⟩ defaultVersion :=
    congrArg (Block.generate · defaultVersion) Analysis.dependencies_requests
  rw [updated, hblock]
  decide +kernel

end

/-- An addition to a script that needs a package writes the block in front of it, and nothing else.
On the same machine it fails and changes nothing if an interpreter is to be asked that is not there,
or if the script may be read and not be written. -/
theorem files_execute_add :
    let add (interpreter : Option String) : CommandLine.Invocation :=
      ⟨false, ⟨defaultVersion, interpreter, defaultRunner⟩, .add "s.py"⟩
    let writable := hostOf .new "import requests\n"
    let readOnly := hostOf ⟨true, false, none⟩ "import requests\n"
    isAddress "s.py" = false ∧
      (∃ behind, (execute false (.ok (add none))).run writable = (0, behind) ∧
        (add none).task.Writes ⟨false, false⟩ (add none).settings writable behind.files ∧
        writable.files.Replaced behind.files ["s.py"] (Text.encode ("# /// script\n" ++
          "# requires-python = \">=3.13\"\n" ++ "# dependencies = [\n" ++ "#     \"requests\",\n" ++
          "# ]\n" ++ "# ///\n" ++ "import requests\n").toList)) ∧
      (∃ behind, (execute false (.ok (add (some "python9")))).run writable = (1, behind) ∧
        behind.files = writable.files) ∧
      ∃ behind, (execute false (.ok (add none))).run readOnly = (1, behind) ∧
        behind.files = readOnly.files := by
  intro add writable readOnly
  have hscript : isAddress "s.py" = false := by decide
  have hother : updated .bundled defaultVersion "import requests\n".toList ≠
      "import requests\n".toList := by
    rw [updated_requests]
    decide +kernel
  -- a failure has the code one, with which no file can have changed
  have hfailed {interpreter : Option String} {m : Machine} {e : Failure} {calls : List Call}
      (h : Ends (Command.add ⟨false, false⟩ ⟨defaultVersion, interpreter, defaultRunner⟩ "s.py") m
        (.error e) calls) :
      ∃ behind, (execute false (.ok (add interpreter))).run m = (1, behind) ∧
        behind.files = m.files := by
    obtain ⟨events, hends⟩ := h
    obtain ⟨hcode, -⟩ := code_and_files_execute (add interpreter) false hends
    have hframe := files_execute (add interpreter) hscript false m
    rcases hrun : (execute false (.ok (add interpreter))).run m with ⟨code, behind⟩
    rw [hrun] at hcode hframe
    obtain rfl : code = 1 := hcode
    exact ⟨behind, rfl, hframe.resolve_right nofun⟩
  refine ⟨hscript, ?_, hfailed ends_add_noInterpreter, hfailed (ends_add_readOnly hother)⟩
  obtain ⟨_, _, hadd⟩ := run_add_hostOf ⟨false, false⟩ hother
  obtain ⟨hcode, hfiles⟩ := code_and_files_execute (add none) false hadd
  have hframe := files_execute (add none) hscript false writable
  rcases hrun : (execute false (.ok (add none))).run writable with ⟨code, behind⟩
  rw [hrun] at hcode hfiles hframe
  obtain rfl : code = 0 := hcode
  have hreplaced : writable.files.Replaced behind.files ["s.py"]
      (Text.encode (updated .bundled defaultVersion "import requests\n".toList)) :=
    hfiles ▸ FileSystem.replaced_put nofun
  rw [updated_requests] at hreplaced
  have hne : behind.files ≠ writable.files := by
    intro hsame
    have hstood : writable.files.find? ["s.py"] =
        some (.file (Text.encode "import requests\n".toList) .new) := rfl
    rw [← hsame, hreplaced.written] at hstood
    exact absurd (Entry.file.inj (Option.some.inj hstood)).1 (by decide +kernel)
  exact ⟨behind, rfl, (hframe.resolve_left hne).2, hreplaced⟩

end ScriptDeps
