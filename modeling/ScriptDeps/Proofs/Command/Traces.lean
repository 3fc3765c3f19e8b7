import ScriptDeps.Proofs.Command.Attempts
import ScriptDeps.Proofs.Host.Traces

/-!
# Two runs of a command

A command is run twice, each time for a console of its own. A relation between machines that the
steps of the command keep is kept by the command, however it ends: both runs give the same code or
the same failure. What touches files are the copy of a remote script, a report that is written and a
block that is added.
-/

namespace ScriptDeps

open Machine

variable {r : Machine → Machine → Prop} {c c' : Console}

namespace Attempt

variable {α β ε : Type}

/-- The attempts give the same on related machines, and leave related machines behind. -/
def Keeps (r : Machine → Machine → Prop) (x y : Attempt α) : Prop :=
  Within r (ExceptT.run x) (ExceptT.run y)

/-- On some machine an attempt gives a value. -/
def Gives (x : Attempt α) (a : α) : Prop := ∃ m, ((ExceptT.run x).run m).1 = .ok a

/-- An attempt gives what its step gives. -/
theorem of_gives_attempt {asFailure : ε → Failure} {step : Step (Except ε α)} {a : α}
    (h : Gives (attempt asFailure step) a) : ∃ m, (step.run m).1 = .ok a := by
  obtain ⟨m, h⟩ := h
  rw [run_attempt_eq] at h
  refine ⟨m, ?_⟩
  split at h
  · exact absurd h nofun
  next hstep => rw [hstep, Except.ok.inj h]

namespace Keeps

variable {x y : Attempt α} {f g : α → Attempt β}

/-- A value is given in both runs. -/
theorem pure (a : α) : Keeps r (Pure.pure a) (Pure.pure a) := Within.pure _

/-- Both runs fail for the same reason. -/
theorem throw (e : Failure) :
    Keeps r (MonadExcept.throw e : Attempt α) (MonadExcept.throw e) := Within.pure _

/-- Attempts in a row; the later ones matter for the values that the first one can give. -/
theorem bind_of_gives (hx : Keeps r x y) (hf : ∀ a, Gives x a → Keeps r (f a) (g a)) :
    Keeps r (x >>= f) (y >>= g) := by
  intro m m' h
  obtain ⟨hvalue, hbehind⟩ := hx m m' h
  rcases hrun : (ExceptT.run x).run m with ⟨result, m₁⟩
  rcases hrun' : (ExceptT.run y).run m' with ⟨result', m₁'⟩
  rw [hrun, hrun'] at hvalue hbehind
  obtain rfl : result = result' := hvalue
  rw [run_bind_eq, run_bind_eq, hrun, hrun']
  cases result with
  | error e => exact ⟨rfl, hbehind⟩
  | ok a => exact hf a ⟨m, by rw [hrun]⟩ m₁ m₁' hbehind

/-- Attempts in a row keep a relation that each of them keeps. -/
theorem bind (hx : Keeps r x y) (hf : ∀ a, Keeps r (f a) (g a)) : Keeps r (x >>= f) (y >>= g) :=
  hx.bind_of_gives fun a _ => hf a

/-- A step that cannot fail. -/
theorem lift {step step' : Step α} (h : Within r step step') :
    Keeps r (liftM step) (liftM step') := by
  rw [Keeps, ExceptT.run_liftM, ExceptT.run_liftM, map_eq_pure_bind, map_eq_pure_bind]
  exact .bind h fun _ => .pure _

/-- A step that can fail. -/
theorem attempt {asFailure : ε → Failure} {step step' : Step (Except ε α)}
    (h : Within r step step') :
    Keeps r (ScriptDeps.attempt asFailure step) (ScriptDeps.attempt asFailure step') := by
  refine (lift h).bind fun result => ?_
  cases result with
  | error e => exact throw _
  | ok a => exact pure a

/-- An attempt that is cleared up after. -/
theorem clearing {clearUp clearUp' : Step Unit} (h : Keeps r x y)
    (hclear : Within r clearUp clearUp') :
    Keeps r (ScriptDeps.clearing clearUp x) (ScriptDeps.clearing clearUp' y) :=
  Within.bind h fun _ => .bind hclear fun _ => .pure _

end Keeps

end Attempt

namespace Command

open Attempt

variable {settings : Settings} {script : String}

/-! ## Parts of commands -/

/-- A script is found at the same place. -/
theorem keeps_findScript (hr : Trace c c' r) (h : isAddress script = true → IgnoresFiles r) :
    Keeps r (findScript c script) (findScript c' script) := .attempt (within_resolve hr h)

/-- What a script needs is let go as the script was found. -/
theorem within_release_of_gives (hr : Trace c c' r) {source : Source}
    (h : isAddress script = true → IgnoresFiles r) (hsource : Gives (findScript c script) source) :
    Within r (release source) (release source) := by
  obtain ⟨m, hresolve⟩ := of_gives_attempt hsource
  exact within_release hr fun hremote => h (isRemote_resolve hresolve ▸ hremote)

/-- The same text is read. -/
theorem keeps_scriptText (hr : Trace c c' r) (path : String) :
    Keeps r (scriptText path) (scriptText path) := .attempt (within_readText hr path)

/-- The same modules are known. -/
theorem keeps_knownModules (hr : Trace c c' r) :
    Keeps r (knownModules settings) (knownModules settings) := .attempt (within_universeFor hr _)

/-- Each console is told what the block declares. -/
theorem within_sayDeclared (hr : Trace c c' r) (block : List Char) :
    Within r (sayDeclared c block) (sayDeclared c' block) := by
  refine .bind (within_say hr _ _) fun _ => ?_
  split
  · split
    · exact within_say hr _ _
    · exact .pure _
  · exact within_say hr _ _

/-- Each console is told which packages were found. -/
theorem within_sayDependencies (hr : Trace c c' r) (label : String)
    (dependencies : DependencyList) (none : String) :
    Within r (sayDependencies c label dependencies none)
      (sayDependencies c' label dependencies none) := within_say hr _ _

/-- Each console is told what was added. -/
theorem within_sayAdded (hr : Trace c c' r) (source : Source) (dependencies : DependencyList) :
    Within r (sayAdded c source dependencies) (sayAdded c' source dependencies) := by
  have hend := (within_say hr .success s!"Updated {source.path} with PEP 723 metadata.").bind
    fun _ => within_sayDependencies hr "Dependencies" dependencies "No external dependencies found."
  rw [sayAdded, sayAdded]
  cases source.address with
  | none => exact hend
  | some address => exact (within_say hr _ _).bind fun _ => (within_say hr _ _).bind fun _ => hend

/-- The same packages are found for the runner, or none if the script has a block. -/
theorem keeps_packagesToName (hr : Trace c c' r) (text : List Char) :
    Keeps r (packagesToName c settings text) (packagesToName c' settings text) := by
  rw [packagesToName, packagesToName]
  split
  · exact (Keeps.lift (within_sayDeclared hr _)).bind fun _ => .pure _
  · refine (keeps_knownModules hr).bind fun known => ?_
    refine (Keeps.lift (within_analyzeText hr known "script" text)).bind fun _ => ?_
    exact (Keeps.lift (within_sayDependencies hr _ _ _)).bind fun _ => .pure _

/-- The script is started with the same packages and ends with the same code. -/
theorem keeps_startAt (hr : Trace c c' r) (path : String) (dependencies : DependencyList)
    (arguments : List String) :
    Keeps r (startAt c settings path dependencies arguments)
      (startAt c' settings path dependencies arguments) := by
  refine (Keeps.attempt (within_run hr _ path dependencies arguments)).bind fun code => ?_
  split
  · exact (Keeps.lift (within_say hr _ _)).bind fun _ => .pure _
  · exact .pure _

/-- Both runs of a script that was found end the same. -/
theorem keeps_runAt (hr : Trace c c' r) (path : String) (arguments : List String) :
    Keeps r (runAt c settings path arguments) (runAt c' settings path arguments) := by
  refine (Keeps.attempt (within_checkScript hr path)).bind fun _ => ?_
  refine (keeps_scriptText hr path).bind fun text => ?_
  exact (keeps_packagesToName hr text).bind fun dependencies =>
    keeps_startAt hr path dependencies arguments

/-! ## Commands -/

/-- A run touches no files but the copy of a remote script. -/
theorem keeps_run (hr : Trace c c' r) (arguments : List String)
    (h : isAddress script = true → IgnoresFiles r) :
    Keeps r (run c settings script arguments) (run c' settings script arguments) := by
  refine (Keeps.attempt (within_checkRunner hr _)).bind fun _ => ?_
  refine (keeps_findScript hr h).bind_of_gives fun source hsource => ?_
  exact .clearing (keeps_runAt hr source.path arguments) (within_release_of_gives hr h hsource)

/-- Making up a report touches no files but the copy of a remote script. -/
theorem keeps_rendered (hr : Trace c c' r) (format : Report.Format)
    (h : isAddress script = true → IgnoresFiles r) :
    Keeps r (rendered c settings format script) (rendered c' settings format script) := by
  refine (keeps_findScript hr h).bind_of_gives fun source hsource => ?_
  refine .clearing ?_ (within_release_of_gives hr h hsource)
  refine (Keeps.attempt (within_checkExists hr source.path)).bind fun _ => ?_
  refine (keeps_knownModules hr).bind fun known => ?_
  exact (Keeps.lift (within_reportOnFile hr known _ source.path)).bind fun _ => .pure _

/-- A check that shows its report touches no files but the copy of a remote script. -/
theorem keeps_check_shown (hr : Trace c c' r) (format : Report.Format)
    (h : isAddress script = true → IgnoresFiles r) :
    Keeps r (check c settings format none script) (check c' settings format none script) := by
  refine (keeps_rendered hr format h).bind fun text => ?_
  exact (Keeps.lift (within_record hr fun _ => rfl)).bind fun _ => .pure _

/-- A check writes the same report to the same file, or shows it. -/
theorem keeps_check (hr : Trace c c' r) (format : Report.Format) (output : Option String)
    (h : IgnoresFiles r) :
    Keeps r (check c settings format output script) (check c' settings format output script) := by
  cases output with
  | none => exact keeps_check_shown hr format fun _ => h
  | some path =>
    refine (keeps_rendered hr format fun _ => h).bind fun text => ?_
    refine (Keeps.attempt (within_writeText hr h path _)).bind fun _ => ?_
    exact (Keeps.lift (within_say hr _ _)).bind fun _ => .pure _

/-- The same script is kept, or the same copy taken away. -/
theorem keeps_keep (hr : Trace c c' r) (h : isAddress script = true → IgnoresFiles r) :
    Keeps r (keep c script) (keep c' script) := by
  refine (keeps_findScript hr h).bind_of_gives fun source hsource => ?_
  refine (Keeps.lift (within_checkExists hr source.path)).bind fun result => ?_
  cases result with
  | ok _ => exact .pure _
  | error e => exact (Keeps.lift (within_release_of_gives hr h hsource)).bind fun _ => .throw _

/-- The same block is written, or none in both runs. -/
theorem keeps_writeBlock (hr : Trace c c' r) (source : Source) (text : List Char)
    (analysis : Analysis) (h : IgnoresFiles r) :
    Keeps r (writeBlock c settings source text analysis)
      (writeBlock c' settings source text analysis) := by
  have hend : Keeps r
      (do sayAdded c source analysis.dependencies; return 0 : Attempt Nat)
      (do sayAdded c' source analysis.dependencies; return 0) :=
    (Keeps.lift (within_sayAdded hr source _)).bind fun _ => .pure _
  rw [writeBlock, writeBlock]
  dsimp only
  split
  · exact (Keeps.lift (within_say hr _ _)).bind fun _ => hend
  · exact (Keeps.attempt (within_writeText hr h source.path _)).bind fun _ => hend

/-- An addition to a script that was found does the same to it. -/
theorem keeps_addTo (hr : Trace c c' r) (source : Source) (h : IgnoresFiles r) :
    Keeps r (addTo c settings source) (addTo c' settings source) := by
  refine (keeps_scriptText hr source.path).bind fun text => ?_
  refine (keeps_knownModules hr).bind fun known => ?_
  refine (Keeps.lift (within_analyzeText hr known "script" text)).bind fun analysis => ?_
  exact keeps_writeBlock hr source text analysis h

/-- An addition keeps the same copy and writes the same block. -/
theorem keeps_add (hr : Trace c c' r) (h : IgnoresFiles r) :
    Keeps r (add c settings script) (add c' settings script) :=
  (keeps_keep hr fun _ => h).bind fun source => keeps_addTo hr source h

/-! ## The program -/

/-- Every task does the same for both consoles. -/
theorem keeps_perform (hr : Trace c c' r) (task : CommandLine.Task) (h : IgnoresFiles r) :
    Keeps r (perform c settings task) (perform c' settings task) := by
  cases task with
  | run script arguments => exact keeps_run hr arguments fun _ => h
  | check script format output => exact keeps_check hr format output h
  | add script => exact keeps_add hr h

/-- Telling of a failure keeps a relation that the attempt keeps. -/
theorem within_conclude (hr : Trace c c' r) {work work' : Attempt Nat} (h : Keeps r work work') :
    Within r (conclude c work) (conclude c' work') := by
  refine .bind h fun result => ?_
  cases result with
  | ok code => exact .pure _
  | error e => exact .bind (within_say hr _ _) fun _ => .pure _

end Command

end ScriptDeps
