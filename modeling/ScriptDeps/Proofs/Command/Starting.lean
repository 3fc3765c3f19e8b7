import ScriptDeps.Proofs.Analysis.Classification
import ScriptDeps.Proofs.Command.Attempts

/-!
# Starting a script

A run asks the runner for its version, looks at the script, asks the interpreter if the script has
no block, and starts the script. Whatever goes wrong on the way ends the run before the script is
started. Main statement: `startsOnce_execute`.
-/

namespace ScriptDeps

open Machine Attempt

variable {m : Machine} {console : Console} {settings : Settings} {script : String}
  {arguments : List String}
  {text : List Char} {u : Universe} {events : List Event} {calls : List Call}

/-! ## The parts of a run -/

/-- The code of the program after a script was to be started: that of the script, and one if a
signal ended it or it could not be started. -/
def scriptCode : Except SystemError Outcome → Nat
  | .error _ => 1
  | .ok outcome =>
    match outcome.status with
    | .exited code => if code < 256 then code else 1
    | .killed _ => 1

namespace Command

/-- A user is told what a block declares. -/
theorem leaves_sayDeclared (console : Console) (block : List Char) (m : Machine) :
    Leaves (sayDeclared console block) m () [] := by
  refine (Leaves.say _ _ _ m).bind_quiet fun _ => ?_
  cases Metadata.ofBlock block with
  | error e => exact .say _ _ _ _
  | ok metadata =>
    dsimp only
    split
    · exact .say _ _ _ _
    · exact .pure _ _

/-- The packages of a script with a block are left to the runner. -/
theorem ends_packagesToName_block (h : (Block.split text).hasBlock = true) (m : Machine) :
    Ends (packagesToName console settings text) m (.ok .empty) [] := by
  simp only [packagesToName, h, if_true]
  exact (Ends.lift (leaves_sayDeclared _ _ m)).bind_quiet fun _ => .pure _ _

/-- The packages of a script without a block are those found in it. -/
theorem ends_packagesToName (h : (Block.split text).hasBlock = false)
    (hu : m.modulesOf settings.interpreter = .ok u) :
    Ends (packagesToName console settings text) (m.after events calls)
      (.ok (Analysis.ofSource u text).1.dependencies) (m.probesOf settings.interpreter) := by
  simp only [packagesToName, h, Bool.false_eq_true, if_false]
  refine (ends_knownModules hu).bind_quiet fun _ => ?_
  refine (Ends.lift (leaves_analyzeText _ u "script" text _)).bind_quiet fun _ => ?_
  exact (Ends.lift (.say _ _ _ _)).bind_quiet fun _ => .pure _ _

/-- An interpreter that does not answer leaves the packages unknown. -/
theorem ends_packagesToName_error {e : ProbeError} (h : (Block.split text).hasBlock = false)
    (he : m.modulesOf settings.interpreter = .error e) :
    Ends (packagesToName console settings text) (m.after events calls) (.error (.probe e))
      (m.probesOf settings.interpreter) := by
  simp only [packagesToName, h, Bool.false_eq_true, if_false]
  exact (ends_knownModules_error he).bind_error

/-- How a run ends after a script was to be started. -/
def startResult (runner : String) (outcome : Except SystemError Outcome) : Except Failure Nat :=
  match runResult runner outcome with
  | .error e => .error (.run e)
  | .ok code => .ok code

/-- The code of the program is that of the script it starts. -/
theorem codeOf_startResult (runner : String) (outcome : Except SystemError Outcome) :
    codeOf (startResult runner outcome) = scriptCode outcome := by
  cases outcome with
  | error e => cases e <;> rfl
  | ok outcome =>
    obtain ⟨stdout, stderr, status⟩ := outcome
    cases status <;> rfl

/-- A started script ends the run with its code, and one that cannot be started with a failure. -/
private theorem ends_startAt (path : String) (d : DependencyList) :
    Ends (startAt console settings path d arguments) (m.after events calls)
      (startResult settings.runner (m.outcomeOf settings.runner (runArguments path d arguments)))
      (m.startsOf settings.runner (runArguments path d arguments)) := by
  have hrun : Leaves _ (m.after events calls) _ _ :=
    leaves_run console settings.runner path d arguments
  rw [startResult]
  cases h : runResult settings.runner
      (m.outcomeOf settings.runner (runArguments path d arguments)) with
  | error e =>
    rw [h] at hrun
    exact (Ends.attempt_error hrun).bind_error
  | ok code =>
    rw [h] at hrun
    refine (Ends.attempt hrun).bind_quiet fun _ => ?_
    split
    · exact (Ends.lift (.say _ _ _ _)).bind_quiet fun _ => .pure _ _
    · exact .pure _ _

/-- A script that does not exist, or that is no text, is not started. -/
private theorem ends_runAt_error {e : ReadError} (h : m.textAt script = .error e) :
    Ends (runAt console settings script arguments) (m.after events calls)
      (.error (if m.files.exists? m.directory script then .read script e
        else .invalid (.noScript script))) [] := by
  have hcheck := leaves_checkScript console script (m.after events calls)
  rw [after_files, after_directory] at hcheck
  cases hexists : m.files.exists? m.directory script with
  | false =>
    rw [hexists] at hcheck
    exact (Ends.attempt_error hcheck).bind_error
  | true =>
    rw [hexists] at hcheck
    refine (Ends.attempt hcheck).bind_quiet fun _ => ?_
    rw [after_after]
    exact (ends_scriptText_error h).bind_error

/-- What follows once the text of a script is known. -/
private theorem ends_runAt {result : Except Failure Nat} {calls' : List Call}
    (h : m.textAt script = .ok text)
    (hrest : ∀ events, Ends
      (do
        let dependencies ← packagesToName console settings text
        startAt console settings script dependencies arguments)
      (m.after events calls) result calls') :
    Ends (runAt console settings script arguments) (m.after events calls) result calls' := by
  have hcheck := leaves_checkScript console script (m.after events calls)
  rw [exists?_of_textAt (m := m.after events calls) h] at hcheck
  refine (Ends.attempt hcheck).bind fun _ => ?_
  rw [after_after, List.append_nil]
  refine (ends_scriptText h).bind fun _ => ?_
  rw [after_after, List.append_nil]
  exact hrest _

/-- An interpreter that does not answer keeps a script without a block from being started. -/
private theorem ends_runAt_modules {e : ProbeError} (h : m.textAt script = .ok text)
    (hblock : (Block.split text).hasBlock = false)
    (he : m.modulesOf settings.interpreter = .error e) :
    Ends (runAt console settings script arguments) (m.after events calls) (.error (.probe e))
      (m.probesOf settings.interpreter) :=
  ends_runAt h fun _ => (ends_packagesToName_error hblock he).bind_error

/-- A script whose packages are known is started with them. -/
theorem ends_runAt_start {d : DependencyList} {probes : List Call}
    (h : m.textAt script = .ok text)
    (hd : ∀ events, Ends (packagesToName console settings text) (m.after events calls) (.ok d)
      probes) :
    Ends (runAt console settings script arguments) (m.after events calls)
      (startResult settings.runner (m.outcomeOf settings.runner (runArguments script d arguments)))
      (probes ++ m.startsOf settings.runner (runArguments script d arguments)) := by
  refine ends_runAt h fun events => (hd events).bind fun _ => ?_
  rw [after_after]
  exact ends_startAt script d

/-- Without the runner nothing is looked at. -/
private theorem ends_run_noRunner (h : m.answers settings.runner = false) :
    Ends (run console settings script arguments) m
      (.error (.invalid (.noRunner settings.runner)))
      (m.startsOf settings.runner ["--version"]) := by
  refine (Ends.attempt_error (.of_run ?_)).bind_error
  rw [run_checkRunner, h]
  rfl

/-- Behind the runner's answer stands the run of the script at the path. -/
theorem ends_run {result : Except Failure Nat} {calls' : List Call}
    (hscript : isAddress script = false) (h : m.answers settings.runner = true)
    (hrest : ∀ events calls, Ends (runAt console settings script arguments) (m.after events calls)
      result calls') :
    Ends (run console settings script arguments) m result
      (m.startsOf settings.runner ["--version"] ++ calls') := by
  have hrunner : Leaves (checkRunner settings.runner) m (.ok ())
      (m.startsOf settings.runner ["--version"]) := .of_run (by rw [run_checkRunner, h]; rfl)
  refine (Ends.attempt hrunner).bind fun _ => ?_
  refine (ends_findScript console hscript _).bind fun _ => ?_
  rw [after_after]
  exact .clearing (release_eq script) (hrest _ _)

end Command

/-! ## Whole runs -/

/-- What keeps a script from being started. -/
inductive Hindered (settings : Settings) (script : String) (m : Machine) : Prop where
  /-- The runner cannot be started, or does not tell its version. -/
  | runner (h : m.answers settings.runner = false)
  /-- The script does not exist. -/
  | missing (h : m.files.exists? m.directory script = false)
  /-- The script cannot be read as a text. -/
  | unreadable (e : ReadError) (h : m.textAt script = .error e)
  /-- The script has no block, and the interpreter does not name its modules. -/
  | modules (text : List Char) (e : ProbeError) (h : m.textAt script = .ok text)
      (hblock : (Block.split text).hasBlock = false)
      (he : m.modulesOf settings.interpreter = .error e)

/-- The packages that the runner is told of: none for a script with a block, and else those found in
it. -/
def IsToldOf (settings : Settings) (m : Machine) (text : List Char) (packages : List String) :
    Prop :=
  if (Block.split text).hasBlock then packages = []
  else ∃ u, m.modulesOf settings.interpreter = .ok u ∧
    packages = (Analysis.ofSource u text).1.dependencies.names

/-- The call starts a script. -/
def Call.startsScript (call : Call) : Bool := call.arguments.head? == some "run"

/-- A run of a script on a machine, by the code it ends with and the programs it starts. -/
structure StartsOnce (settings : Settings) (script : String) (arguments : List String)
    (m : Machine) (code : Nat) (started : List Call) : Prop where
  /-- The runner is asked for its version first. -/
  asks_first : m.startsOf settings.runner ["--version"] <+: started
  /-- Nothing else is started if it does not answer. -/
  no_runner : m.answers settings.runner = false →
    started = m.startsOf settings.runner ["--version"]
  /-- Whatever keeps the script from being started ends the run with code one. -/
  hindered : Hindered settings script m → code = 1 ∧ ∀ call ∈ started, call.startsScript = false
  /-- Otherwise the interpreter is asked if the script has no block, and then the script is started
  with its packages and arguments and gives the code. -/
  otherwise : ¬Hindered settings script m → ∃ text packages,
    m.textAt script = .ok text ∧ IsToldOf settings m text packages ∧
    Analysis.Ascending packages ∧
    started = m.startsOf settings.runner ["--version"] ++
      (if (Block.split text).hasBlock then [] else m.probesOf settings.interpreter) ++
      m.startsOf settings.runner
        ("run" :: packages.flatMap (fun package => ["--with", package]) ++ script :: arguments) ∧
    code = scriptCode (m.outcomeOf settings.runner
      ("run" :: packages.flatMap (fun package => ["--with", package]) ++ script :: arguments))
  /-- With a block nothing is started besides the version and the script. -/
  unprobed : ∀ text, m.textAt script = .ok text → (Block.split text).hasBlock = true →
    ∃ rest, started = m.startsOf settings.runner ["--version"] ++ rest ∧
      ∀ call ∈ rest, call.startsScript = true
  /-- No run starts a script twice. -/
  once : started.countP Call.startsScript ≤ 1

/-- A start is one of a script if it begins with the word for running. -/
theorem startsScript_of_mem_startsOf {name : String} {given : List String} {call : Call}
    (h : call ∈ m.startsOf name given) : call.startsScript = (given.head? == some "run") := by
  rw [startsOf] at h
  split at h
  · exact absurd h List.not_mem_nil
  · rw [List.mem_singleton.1 h, Call.startsScript]

/-- Asking an interpreter starts no script. -/
theorem startsScript_of_mem_probesOf {interpreter : Option String} {call : Call}
    (h : call ∈ m.probesOf interpreter) : call.startsScript = false := by
  cases interpreter with
  | none => exact absurd h List.not_mem_nil
  | some interpreter => exact startsScript_of_mem_startsOf h

/-- A program is started at most once. -/
theorem countP_startsOf_le (name : String) (given : List String) :
    (m.startsOf name given).countP Call.startsScript ≤ 1 := by
  refine List.countP_le_length.trans ?_
  rw [startsOf]
  split <;> simp

/-- A run that is ended early has the code one and starts no script. -/
private theorem startsOnce_hindered {probes : List Call} {code : Nat}
    (h : Hindered settings script m) (hcode : code = 1)
    (hprobes : probes = [] ∨ m.answers settings.runner = true ∧
      probes = m.probesOf settings.interpreter ∧
      ∀ text, m.textAt script = .ok text → (Block.split text).hasBlock = false) :
    StartsOnce settings script arguments m code
      (m.startsOf settings.runner ["--version"] ++ probes) := by
  have hnever : ∀ call ∈ m.startsOf settings.runner ["--version"] ++ probes,
      call.startsScript = false := by
    intro call hcall
    rcases List.mem_append.1 hcall with hcall | hcall
    · exact startsScript_of_mem_startsOf hcall
    · rcases hprobes with rfl | ⟨_, rfl, _⟩
      · exact absurd hcall List.not_mem_nil
      · exact startsScript_of_mem_probesOf hcall
  refine ⟨List.prefix_append _ _, ?_, fun _ => ⟨hcode, hnever⟩, fun hnot => absurd h hnot, ?_, ?_⟩
  · intro hrunner
    rcases hprobes with rfl | ⟨hanswers, _⟩
    · exact List.append_nil _
    · rw [hrunner] at hanswers
      exact absurd hanswers Bool.false_ne_true
  · intro text htext hblock
    rcases hprobes with rfl | ⟨_, _, hbare⟩
    · exact ⟨[], rfl, fun call hcall => absurd hcall List.not_mem_nil⟩
    · exact absurd (hbare text htext) (by simp [hblock])
  · rw [List.countP_eq_zero.2 fun call hcall => by simp [hnever call hcall]]
    exact Nat.zero_le 1

/-- A run that starts the script ends with its code. -/
private theorem startsOnce_started {d : DependencyList} {probes : List Call} {code : Nat}
    (hrunner : m.answers settings.runner = true) (htext : m.textAt script = .ok text)
    (hd : IsToldOf settings m text d.names) (hascending : Analysis.Ascending d.names)
    (hprobes : probes =
      if (Block.split text).hasBlock then [] else m.probesOf settings.interpreter)
    (hcode : code = scriptCode (m.outcomeOf settings.runner (runArguments script d arguments))) :
    StartsOnce settings script arguments m code
      (m.startsOf settings.runner ["--version"] ++
        (probes ++ m.startsOf settings.runner (runArguments script d arguments))) := by
  have hfree : ¬Hindered settings script m := by
    rintro (h | h | ⟨e, h⟩ | ⟨text', e, h, hblock, he⟩)
    · exact absurd (h.symm.trans hrunner) Bool.false_ne_true
    · exact absurd (h.symm.trans (exists?_of_textAt htext)) Bool.false_ne_true
    · exact absurd (h.symm.trans htext) nofun
    · obtain rfl : text' = text := Except.ok.inj (h.symm.trans htext)
      rw [IsToldOf, hblock, if_neg Bool.false_ne_true] at hd
      obtain ⟨u, hu, _⟩ := hd
      exact absurd (he.symm.trans hu) nofun
  refine ⟨List.prefix_append _ _, ?_, fun h => absurd h hfree, fun _ => ?_, ?_, ?_⟩
  · intro h
    exact absurd (h.symm.trans hrunner) Bool.false_ne_true
  · exact ⟨text, d.names, htext, hd, hascending, by rw [hprobes, List.append_assoc]; rfl, hcode⟩
  · intro text' htext' hblock
    obtain rfl : text = text' := Except.ok.inj (htext.symm.trans htext')
    rw [hblock, if_pos rfl] at hprobes
    refine ⟨_, by rw [hprobes, List.nil_append], fun call hcall => ?_⟩
    rw [startsScript_of_mem_startsOf hcall]
    rfl
  · have hprobe : probes.countP Call.startsScript = 0 := by
      refine List.countP_eq_zero.2 fun call hcall => ?_
      rw [hprobes] at hcall
      split at hcall
      · exact absurd hcall List.not_mem_nil
      · simp [startsScript_of_mem_probesOf hcall]
    have hversion : (m.startsOf settings.runner ["--version"]).countP Call.startsScript = 0 :=
      List.countP_eq_zero.2 fun call hcall => by simp [startsScript_of_mem_startsOf hcall]
    rw [List.countP_append, List.countP_append, hversion, hprobe, Nat.zero_add, Nat.zero_add]
    exact countP_startsOf_le _ _

/-- Running a script starts it at most once, and only if nothing keeps it from being started; all
that a run leaves behind are events and starts of programs. -/
theorem startsOnce_execute {i : CommandLine.Invocation} (hi : i.task = .run script arguments)
    (hscript : isAddress script = false) (useColors : Bool) (m : Machine) :
    ∃ code started events, (execute useColors (.ok i)).run m = (code, m.after events started) ∧
      StartsOnce i.settings script arguments m code started := by
  suffices ∃ result started,
      Ends (Command.run ⟨i.verbose, useColors⟩ i.settings script arguments) m result started ∧
        StartsOnce i.settings script arguments m (codeOf result) started by
    obtain ⟨result, started, hends, honce⟩ := this
    obtain ⟨events, hrun⟩ := leaves_conclude ⟨i.verbose, useColors⟩ hends
    refine ⟨_, started, events, ?_, honce⟩
    rwa [execute, hi]
  cases hrunner : m.answers i.settings.runner with
  | false =>
    refine ⟨_, _, Command.ends_run_noRunner hrunner, ?_⟩
    rw [← List.append_nil (m.startsOf _ _)]
    exact startsOnce_hindered (.runner hrunner) rfl (.inl rfl)
  | true =>
    cases htext : m.textAt script with
    | error e =>
      refine ⟨_, _, Command.ends_run hscript hrunner fun _ _ => Command.ends_runAt_error htext, ?_⟩
      exact startsOnce_hindered (.unreadable e htext) rfl (.inl rfl)
    | ok text =>
      cases hblock : (Block.split text).hasBlock with
      | true =>
        refine ⟨_, _, Command.ends_run hscript hrunner fun _ _ =>
          Command.ends_runAt_start htext fun _ => Command.ends_packagesToName_block hblock _, ?_⟩
        exact startsOnce_started hrunner htext (by rw [IsToldOf, hblock]; rfl) .nil
          (by rw [hblock]; rfl) (Command.codeOf_startResult _ _)
      | false =>
        cases hu : m.modulesOf i.settings.interpreter with
        | error e =>
          refine ⟨_, _, Command.ends_run hscript hrunner fun _ _ =>
            Command.ends_runAt_modules htext hblock hu, ?_⟩
          refine startsOnce_hindered (.modules text e htext hblock hu) rfl
            (.inr ⟨hrunner, rfl, fun text' htext' => ?_⟩)
          rwa [← Except.ok.inj (htext.symm.trans htext')]
        | ok u =>
          refine ⟨_, _, Command.ends_run hscript hrunner fun _ _ =>
            Command.ends_runAt_start htext fun _ => Command.ends_packagesToName hblock hu, ?_⟩
          exact startsOnce_started hrunner htext
            (by rw [IsToldOf, hblock]; exact ⟨u, hu, rfl⟩)
            (Analysis.ascending_dependencies u text)
            (by rw [hblock]; rfl) (Command.codeOf_startResult _ _)

/-- A machine with one script, of the given mode, and a runner whose scripts end with code seven. -/
def hostOf (mode : Mode) (text : String) : Machine where
  files := ⟨[(["bin"], .directory),
    (["bin", "uv"], .file [] ⟨true, true, some fun _ given =>
      ⟨[], [], .exited (if given = ["--version"] then 0 else 7)⟩⟩),
    (["s.py"], .file (Text.encode text.toList) mode)]⟩
  directory := []
  searchPath := [["bin"]]
  network := fun _ => .error .unreachable
  copyPath := "/tmp/copy.py"
  clock := ""
  events := []
  calls := []

/-- The script on that machine is a file of its mode. -/
theorem locate_hostOf (mode : Mode) (text : String) :
    (hostOf mode text).files.locate [] "s.py" =
      .ok (["s.py"], .file (Text.encode text.toList) mode) := rfl

/-- The script on that machine can be replaced if its mode lets it be written. -/
theorem target_hostOf (mode : Mode) (text : String) :
    (hostOf mode text).files.target [] "s.py" =
      if mode.writable then .ok ["s.py"] else .error .denied := rfl

/-- A script with a block is started without packages, and the program ends with its code. -/
theorem startsOnce_execute_block :
    let i : CommandLine.Invocation := ⟨false, .default, .run "s.py" ["-v"]⟩
    let m := hostOf .new "# /// script\n# ///\n"
    ∃ code started events, (execute false (.ok i)).run m = (code, m.after events started) ∧
      StartsOnce .default "s.py" ["-v"] m code started ∧ code = 7 ∧
      started = [⟨["bin", "uv"], ["--version"]⟩, ⟨["bin", "uv"], ["run", "s.py", "-v"]⟩] := by
  obtain ⟨code, started, events, hrun, honce⟩ :=
    startsOnce_execute (i := ⟨false, .default, .run "s.py" ["-v"]⟩) rfl (by decide) false
      (hostOf .new "# /// script\n# ///\n")
  have hcode : code = 7 := (congrArg Prod.fst hrun).symm.trans (by decide +kernel)
  have hstarted : started =
      [⟨["bin", "uv"], ["--version"]⟩, ⟨["bin", "uv"], ["run", "s.py", "-v"]⟩] :=
    (congrArg (fun result => result.2.calls) hrun).symm.trans (by decide +kernel)
  exact ⟨code, started, events, hrun, honce, hcode, hstarted⟩

end ScriptDeps
