import ScriptDeps.Modules.Probe
import ScriptDeps.Remote
import ScriptDeps.Validation

/-!
# What steps of a machine leave behind

Most steps of a machine read it, record events and start programs, and change nothing else. The
machine after such a step is the old one with more events and more starts; programs, files and
paths mean the same on both. Each step has one lemma that says what it gives and what it leaves
behind.
-/

namespace ScriptDeps.Machine

variable {m : Machine} {events : List Event} {calls : List Call}

/-- The machine after more events and more starts of programs. -/
def after (m : Machine) (events : List Event) (calls : List Call) : Machine :=
  { m with events := m.events ++ events, calls := m.calls ++ calls }

@[simp] theorem after_files : (m.after events calls).files = m.files := rfl

@[simp] theorem after_directory : (m.after events calls).directory = m.directory := rfl

@[simp] theorem after_searchPath : (m.after events calls).searchPath = m.searchPath := rfl

@[simp] theorem after_copyPath : (m.after events calls).copyPath = m.copyPath := rfl

/-- The new starts are recorded behind those before. -/
@[simp] theorem after_calls : (m.after events calls).calls = m.calls ++ calls := rfl

/-- Without events and starts the machine is the same. -/
@[simp] theorem after_nil : m.after [] [] = m := by simp [after]

/-- Events and starts add up. -/
@[simp] theorem after_after {events' : List Event} {calls' : List Call} :
    (m.after events calls).after events' calls' =
      m.after (events ++ events') (calls ++ calls') := by
  simp [after]

/-! ## Steps in a row -/

section

variable {α β : Type}

/-- Of two steps in a row, the second one begins where the first one ends. -/
theorem run_bind (x : Step α) (f : α → Step β) (m : Machine) :
    (x >>= f).run m = (f (x.run m).1).run (x.run m).2 := rfl

@[simp] theorem run_pure (a : α) (m : Machine) : (pure a : Step α).run m = (a, m) := rfl

@[simp] theorem run_get (m : Machine) : (get : Step Machine).run m = (m, m) := rfl

@[simp] theorem run_set (m m' : Machine) : (set m' : Step PUnit).run m = (⟨⟩, m') := rfl

end

/-- An event is recorded behind those before. -/
@[simp] theorem run_record (e : Event) (m : Machine) :
    (record e).run m = ((), m.after [e] []) := by
  rw [after, List.append_nil]
  rfl

/-- What a receiver takes of some messages is recorded. -/
@[simp] theorem run_sayAll (sink : Sink) (messages : List Message) (m : Machine) :
    (sayAll sink messages).run m = ((), m.after (sink.events messages) []) := by
  rw [after, List.append_nil]
  rfl

/-- A step gives a value, and all that it leaves behind are events and the given starts. -/
def Leaves {α : Type} (step : Step α) (m : Machine) (a : α) (calls : List Call) : Prop :=
  ∃ events, step.run m = (a, m.after events calls)

namespace Leaves

variable {α β : Type} {a : α} {b : β} {x : Step α} {f : α → Step β} {calls' : List Call}

/-- A step whose run is known, and records no event. -/
theorem of_run (h : x.run m = (a, m.after [] calls)) : Leaves x m a calls := ⟨[], h⟩

/-- A value that is given at once. -/
theorem pure (a : α) (m : Machine) : Leaves (Pure.pure a) m a [] :=
  of_run (by rw [run_pure, after_nil])

/-- The second step works on what the first one leaves behind. -/
theorem bind (hx : Leaves x m a calls)
    (hf : ∀ events, Leaves (f a) (m.after events calls) b calls') :
    Leaves (x >>= f) m b (calls ++ calls') := by
  obtain ⟨events, hx⟩ := hx
  obtain ⟨events', hf⟩ := hf events
  exact ⟨events ++ events', by rw [run_bind, hx, hf, after_after]⟩

/-- The second step starts no program. -/
theorem bind_quiet (hx : Leaves x m a calls)
    (hf : ∀ events, Leaves (f a) (m.after events calls) b []) : Leaves (x >>= f) m b calls := by
  have h := hx.bind hf
  rwa [List.append_nil] at h

/-- Recording an event starts nothing. -/
theorem record (e : Event) (m : Machine) : Leaves (Machine.record e) m () [] :=
  ⟨[e], run_record e m⟩

/-- Reporting messages starts nothing, whichever of them are taken. -/
theorem sayAll (sink : Sink) (messages : List Message) (m : Machine) :
    Leaves (Machine.sayAll sink messages) m () [] :=
  ⟨_, run_sayAll sink messages m⟩

/-- Reporting one message starts nothing. -/
theorem say (sink : Sink) (level : Level) (text : String) (m : Machine) :
    Leaves (Machine.say sink level text) m () [] := sayAll sink _ m

/-- A note about a download starts nothing, whether it is wanted or not. -/
theorem note (wanted : Bool) (p : Progress) (m : Machine) :
    Leaves (Machine.note wanted p) m () [] := by
  cases wanted with
  | true => exact record _ m
  | false => exact pure () m

end Leaves

/-! ## Programs -/

/-- Directories are searched for the same programs, whatever happened before. -/
theorem searchProgram_after (name : String) (refusal : SystemError) (directories : List Path) :
    (m.after events calls).searchProgram name refusal directories =
      m.searchProgram name refusal directories := by
  induction directories generalizing refusal with
  | nil => rfl
  | cons directory rest ih => simp only [searchProgram, after_files, ih]

/-- A call means the same program, whatever happened before. -/
@[simp] theorem callee_after (name : String) (arguments : List String) :
    (m.after events calls).callee name arguments = m.callee name arguments := by
  simp only [callee, findProgram, after_files, after_directory, after_searchPath,
    searchProgram_after]

/-- What a program does when it is started. -/
def outcomeOf (m : Machine) (name : String) (arguments : List String) :
    Except SystemError Outcome :=
  match m.callee name arguments with
  | .error e => .error e
  | .ok (_, program) => .ok (program arguments)

/-- The starts that are recorded when a program is started: none if it cannot be. -/
def startsOf (m : Machine) (name : String) (arguments : List String) : List Call :=
  match m.callee name arguments with
  | .error _ => []
  | .ok (place, _) => [⟨place, arguments⟩]

/-- What a program does does not depend on what happened before. -/
@[simp] theorem outcomeOf_after (name : String) (arguments : List String) :
    (m.after events calls).outcomeOf name arguments = m.outcomeOf name arguments := by
  simp only [outcomeOf, callee_after]

/-- Whether a program can be started does not depend on what happened before. -/
@[simp] theorem startsOf_after (name : String) (arguments : List String) :
    (m.after events calls).startsOf name arguments = m.startsOf name arguments := by
  simp only [startsOf, callee_after]

/-- Starting a program records the start and nothing else. -/
theorem run_start (name : String) (arguments : List String) (m : Machine) :
    (start name arguments).run m =
      (m.outcomeOf name arguments, m.after [] (m.startsOf name arguments)) := by
  cases h : m.callee name arguments with
  | error e =>
    simp only [start, outcomeOf, startsOf, run_bind, run_get, run_pure, h, after_nil]
  | ok found =>
    simp only [start, outcomeOf, startsOf, run_bind, run_get, run_set, run_pure, h, after,
      List.append_nil]

/-- The runner can be started and tells its version. -/
def answers (m : Machine) (runner : String) : Bool :=
  match m.outcomeOf runner ["--version"] with
  | .error _ => false
  | .ok outcome => outcome.status.isSuccess

/-- Whether there is a runner is found out by asking it for its version. -/
theorem run_hasRunner (runner : String) (m : Machine) :
    (hasRunner runner).run m =
      (m.answers runner, m.after [] (m.startsOf runner ["--version"])) := by
  cases h : m.outcomeOf runner ["--version"] <;>
    simp only [hasRunner, answers, run_bind, run_start, run_pure, h]

/-- A runner that does not answer is an error; asking it is the only thing that is done. -/
theorem run_checkRunner (runner : String) (m : Machine) :
    (checkRunner runner).run m =
      (if m.answers runner then .ok () else .error (.noRunner runner),
        m.after [] (m.startsOf runner ["--version"])) := by
  cases h : m.answers runner <;>
    simp only [checkRunner, run_bind, run_hasRunner, run_pure, h, if_true, if_false,
      Bool.false_eq_true]

/-- A runner answers or not, whatever happened before. -/
@[simp] theorem answers_after (runner : String) :
    (m.after events calls).answers runner = m.answers runner := by
  simp only [answers, outcomeOf_after]

/-- The modules that are known when an interpreter is asked, or when none is. -/
def modulesOf (m : Machine) : Option String → Except ProbeError Universe
  | none => .ok .bundled
  | some interpreter =>
    match m.outcomeOf interpreter probeArguments with
    | .error e => .error (.spawn interpreter e)
    | .ok outcome => Universe.ofOutcome interpreter outcome

/-- The starts that asking an interpreter takes. -/
def probesOf (m : Machine) (interpreter : Option String) : List Call :=
  interpreter.elim [] (m.startsOf · probeArguments)

/-- An interpreter names the same modules, whatever happened before. -/
@[simp] theorem modulesOf_after (interpreter : Option String) :
    (m.after events calls).modulesOf interpreter = m.modulesOf interpreter := by
  cases interpreter <;> simp only [modulesOf, outcomeOf_after]

/-- Asking it takes the same starts. -/
@[simp] theorem probesOf_after (interpreter : Option String) :
    (m.after events calls).probesOf interpreter = m.probesOf interpreter := by
  simp only [probesOf, startsOf_after]

/-- The known modules are found out by at most one start. -/
theorem run_universeFor (interpreter : Option String) (m : Machine) :
    (universeFor interpreter).run m =
      (m.modulesOf interpreter, m.after [] (m.probesOf interpreter)) := by
  cases interpreter with
  | none => simp only [universeFor, modulesOf, probesOf, run_pure, Option.elim_none, after_nil]
  | some interpreter =>
    cases h : m.outcomeOf interpreter probeArguments <;>
      simp only [universeFor, probe, modulesOf, probesOf, Option.elim_some, run_bind, run_start,
        run_pure, h]

/-! ## Files -/

/-- The text of the file at a path. -/
def textAt (m : Machine) (path : String) : Except ReadError (List Char) :=
  match m.files.read m.directory path with
  | .error e => .error (.system e)
  | .ok bytes =>
    match Text.decode bytes with
    | .ok text => .ok text
    | .error _ => .error .notText

/-- A file has the same text, whatever happened before. -/
@[simp] theorem textAt_after (path : String) : (m.after events calls).textAt path = m.textAt path :=
  rfl

/-- Reading a text changes nothing. -/
theorem run_readText (path : String) (m : Machine) :
    (readText path).run m = (m.textAt path, m) := by
  cases h : m.files.read m.directory path with
  | error e => simp only [readText, readBytes, textAt, run_bind, run_get, run_pure, h]
  | ok bytes =>
    cases h' : Text.decode bytes <;>
      simp only [readText, readBytes, textAt, run_bind, run_get, run_pure, h, h']

/-- A text is read from the bytes of a file. -/
theorem textAt_eq_ok_iff {path : String} {text : List Char} :
    m.textAt path = .ok text ↔
      ∃ bytes, m.files.read m.directory path = .ok bytes ∧ Text.decode bytes = .ok text := by
  rw [textAt]
  cases m.files.read m.directory path with
  | error e => simp
  | ok bytes => cases h : Text.decode bytes <;> simp [h]

/-- A script that can be read exists. -/
theorem exists?_of_textAt {path : String} {text : List Char} (h : m.textAt path = .ok text) :
    m.files.exists? m.directory path = true := by
  rw [FileSystem.exists?]
  cases hplace : m.files.locate m.directory path with
  | error e => simp [textAt, FileSystem.read, hplace] at h
  | ok _ => rfl

/-- Checking that a script exists changes nothing. -/
theorem run_checkExists (path : String) (m : Machine) :
    (checkExists path).run m =
      (if m.files.exists? m.directory path then .ok () else .error (.noScript path), m) := by
  cases h : m.files.exists? m.directory path <;>
    simp only [checkExists, pathExists, run_bind, run_get, run_pure, h, if_true, if_false,
      Bool.false_eq_true]

/-- A script with an unusual ending is told of and starts nothing. -/
theorem leaves_checkEnding (sink : Sink) (path : String) (m : Machine) :
    Leaves (checkEnding sink path) m (hasScriptEnding path) [] := by
  cases h : hasScriptEnding path with
  | true => simpa only [checkEnding, h, if_true] using .pure true m
  | false =>
    simp only [checkEnding, h, Bool.false_eq_true, if_false]
    exact (Leaves.say _ _ _ m).bind_quiet fun _ => .pure false _

/-- A script is checked without starting anything; only a missing one is an error. -/
theorem leaves_checkScript (sink : Sink) (path : String) (m : Machine) :
    Leaves (checkScript sink path) m
      (if m.files.exists? m.directory path then .ok () else .error (.noScript path)) [] := by
  have hexists : Leaves (checkExists path) m
      (if m.files.exists? m.directory path then .ok () else .error (.noScript path)) [] :=
    .of_run (by rw [run_checkExists, after_nil])
  refine hexists.bind_quiet fun _ => ?_
  cases m.files.exists? m.directory path with
  | true => exact (leaves_checkEnding sink path _).bind_quiet fun _ => .pure _ _
  | false => exact .pure _ _

/-- What a user is told about a script that was started, or why it was not. -/
def runResult (runner : String) : Except SystemError Outcome → Except RunError Nat
  | .error .notFound => .error (.notInstalled runner)
  | .error e => .error (.system runner e)
  | .ok outcome => .ok outcome.status.code

/-- A script is run by one start of the runner, which decides how the run ends. -/
theorem leaves_run (sink : Sink) (runner script : String) (dependencies : DependencyList)
    (arguments : List String) :
    Leaves (Machine.run sink runner script dependencies arguments) (m.after events calls)
      (runResult runner (m.outcomeOf runner (runArguments script dependencies arguments)))
      (m.startsOf runner (runArguments script dependencies arguments)) := by
  refine (Leaves.say _ _ _ _).bind fun events' => ?_
  rw [after_after, List.append_nil]
  have hstart : Leaves (start runner (runArguments script dependencies arguments))
      (m.after (events ++ events') calls)
      (m.outcomeOf runner (runArguments script dependencies arguments))
      (m.startsOf runner (runArguments script dependencies arguments)) :=
    .of_run (by rw [run_start, outcomeOf_after, startsOf_after])
  refine hstart.bind_quiet fun events' => ?_
  cases m.outcomeOf runner (runArguments script dependencies arguments) with
  | error e => cases e <;> exact .pure _ _
  | ok outcome => exact (Leaves.record _ _).bind_quiet fun _ => .pure _ _

end ScriptDeps.Machine
