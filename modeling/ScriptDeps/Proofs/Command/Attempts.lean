import ScriptDeps.Command.Program
import ScriptDeps.Proofs.Host.Steps

/-!
# Attempts that touch no file

An attempt that touches no file ends with a value or a failure, and leaves behind events and starts
of programs. Attempts in a row end as the first one that fails, or as the last one.
-/

namespace ScriptDeps.Attempt

open Machine

variable {α β ε : Type} {m : Machine} {events : List Event} {calls calls' : List Call}

/-- An attempt gives a value or a failure, and all that it leaves behind are events and the given
starts. -/
def Ends (x : Attempt α) (m : Machine) (result : Except Failure α) (calls : List Call) : Prop :=
  Leaves (ExceptT.run x) m result calls

/-- An attempt goes on as another one does behind events and the given starts. -/
def LeadsTo (x : Attempt α) (m : Machine) (y : Attempt α) (calls : List Call) : Prop :=
  ∃ events, (ExceptT.run x).run m = (ExceptT.run y).run (m.after events calls)

/-- Attempts in a row end with the first failure. -/
theorem run_bind_eq (x : Attempt α) (f : α → Attempt β) (m : Machine) :
    (ExceptT.run (x >>= f)).run m =
      match (ExceptT.run x).run m with
      | (.error e, m') => (.error e, m')
      | (.ok a, m') => (ExceptT.run (f a)).run m' := by
  rw [ExceptT.run_bind, run_bind]
  rcases (ExceptT.run x).run m with ⟨_ | _, m'⟩ <;> rfl

/-- An attempt at a step gives what the step gives. -/
theorem run_attempt_eq (asFailure : ε → Failure) (step : Step (Except ε α)) (m : Machine) :
    (ExceptT.run (attempt asFailure step)).run m =
      match step.run m with
      | (.error e, m') => (.error (asFailure e), m')
      | (.ok a, m') => (.ok a, m') := by
  rw [attempt, ExceptT.run_bind, ExceptT.run_liftM, map_eq_pure_bind, run_bind, run_bind]
  rcases step.run m with ⟨_ | _, m'⟩ <;> rfl

namespace Ends

variable {x : Attempt α} {f : α → Attempt β} {step : Step α} {a : α}

/-- A value that is given at once. -/
theorem pure (a : α) (m : Machine) : Ends (Pure.pure a) m (.ok a) [] := by
  rw [Ends, ExceptT.run_pure]
  exact Leaves.pure _ m

/-- A failure that is raised at once. -/
theorem throw (e : Failure) (m : Machine) :
    Ends (MonadExcept.throw e : Attempt α) m (.error e) [] := by
  rw [Ends, ExceptT.run_throw]
  exact Leaves.pure _ m

/-- What follows a success works on what it leaves behind. -/
theorem bind {result : Except Failure β} (hx : Ends x m (.ok a) calls)
    (hf : ∀ events, Ends (f a) (m.after events calls) result calls') :
    Ends (x >>= f) m result (calls ++ calls') := by
  rw [Ends, ExceptT.run_bind]
  exact Leaves.bind hx hf

/-- What follows a success and starts no program. -/
theorem bind_quiet {result : Except Failure β} (hx : Ends x m (.ok a) calls)
    (hf : ∀ events, Ends (f a) (m.after events calls) result []) :
    Ends (x >>= f) m result calls := by
  have h := hx.bind hf
  rwa [List.append_nil] at h

/-- What follows a success that starts no program. -/
theorem quiet_bind {result : Except Failure β} (hx : Ends x m (.ok a) [])
    (hf : ∀ events, Ends (f a) (m.after events []) result calls) : Ends (x >>= f) m result calls :=
  hx.bind hf

/-- Behind a success, a row of attempts goes on with what follows. -/
theorem leadsTo {y : Attempt β} (hx : Ends x m (.ok a) calls)
    (hf : ∀ events, LeadsTo (f a) (m.after events calls) y calls') :
    LeadsTo (x >>= f) m y (calls ++ calls') := by
  obtain ⟨events, hx⟩ := hx
  obtain ⟨events', hf⟩ := hf events
  refine ⟨events ++ events', ?_⟩
  rw [ExceptT.run_bind, run_bind, hx, ← after_after]
  exact hf

/-- A failure is the end. -/
theorem bind_error {e : Failure} (hx : Ends x m (.error e) calls) :
    Ends (x >>= f) m (.error e) calls := by
  rw [Ends, ExceptT.run_bind]
  exact Leaves.bind_quiet hx fun _ => Leaves.pure _ _

/-- A step that cannot fail. -/
theorem lift (h : Leaves step m a calls) : Ends (liftM step) m (.ok a) calls := by
  rw [Ends, ExceptT.run_liftM, map_eq_pure_bind]
  exact Leaves.bind_quiet h fun _ => Leaves.pure _ _

/-- A step that gives a value. -/
theorem attempt {asFailure : ε → Failure} {step : Step (Except ε α)}
    (h : Leaves step m (.ok a) calls) : Ends (ScriptDeps.attempt asFailure step) m (.ok a) calls :=
  (lift h).bind_quiet fun _ => pure a _

/-- A step that fails, as the failure it stands for. -/
theorem attempt_error {asFailure : ε → Failure} {step : Step (Except ε α)} {e : ε}
    (h : Leaves step m (.error e) calls) :
    Ends (ScriptDeps.attempt asFailure step) m (.error (asFailure e)) calls :=
  (lift h).bind_quiet fun _ => throw (asFailure e) _

/-- Clearing up that does nothing does not change how an attempt ends. -/
theorem clearing {clearUp : Step Unit} {work : Attempt α} {result : Except Failure α}
    (hclear : clearUp = Pure.pure ()) (h : Ends work m result calls) :
    Ends (ScriptDeps.clearing clearUp work) m result calls := by
  rw [ScriptDeps.clearing, hclear]
  exact Leaves.bind_quiet h fun _ => Leaves.pure result _

end Ends

/-- An attempt that leads to another one ends as that one does. -/
theorem LeadsTo.ends {x y : Attempt α} {result : Except Failure α} (h : LeadsTo x m y calls)
    (hy : ∀ events, Ends y (m.after events calls) result []) : Ends x m result calls := by
  obtain ⟨events, h⟩ := h
  obtain ⟨events', hy⟩ := hy events
  exact ⟨events ++ events', by rw [h, hy, after_after, List.append_nil]⟩

/-! ## Scripts on this machine -/

variable {script : String}

/-- A script that no address names is where its path says. -/
theorem resolve_eq (sink : Sink) (h : isAddress script = false) (showProgress : Bool) :
    resolve sink script showProgress = Pure.pure (.ok ⟨script, none⟩) := by
  rw [resolve, h]
  rfl

/-- A script on this machine is let go as it is. -/
theorem release_eq (path : String) : release ⟨path, none⟩ = Pure.pure () := rfl

/-- The script that a path means is found. -/
theorem ends_findScript (console : Console) (h : isAddress script = false) (m : Machine) :
    Ends (Command.findScript console script) m (.ok ⟨script, none⟩) [] := by
  rw [Command.findScript, resolve_eq _ h]
  exact .attempt (.pure _ m)

/-! The steps that read a machine give the same after events and starts. -/

/-- The text of a script is read. -/
theorem ends_scriptText {text : List Char} (h : m.textAt script = .ok text) :
    Ends (Command.scriptText script) (m.after events calls) (.ok text) [] :=
  .attempt (.of_run (by rw [run_readText, textAt_after, h, after_nil]))

/-- A script that cannot be read is a failure. -/
theorem ends_scriptText_error {e : ReadError} (h : m.textAt script = .error e) :
    Ends (Command.scriptText script) (m.after events calls) (.error (.read script e)) [] :=
  .attempt_error (.of_run (by rw [run_readText, textAt_after, h, after_nil]))

/-- The modules of the interpreter are found out. -/
theorem ends_knownModules {settings : Settings} {u : Universe}
    (h : m.modulesOf settings.interpreter = .ok u) :
    Ends (Command.knownModules settings) (m.after events calls) (.ok u)
      (m.probesOf settings.interpreter) :=
  .attempt (.of_run (by rw [run_universeFor, modulesOf_after, probesOf_after, h]))

/-- An interpreter that names no modules is a failure. -/
theorem ends_knownModules_error {settings : Settings} {e : ProbeError}
    (h : m.modulesOf settings.interpreter = .error e) :
    Ends (Command.knownModules settings) (m.after events calls) (.error (.probe e))
      (m.probesOf settings.interpreter) :=
  .attempt_error (.of_run (by rw [run_universeFor, modulesOf_after, probesOf_after, h]))

/-- What is found in a text does not depend on who is told of it. -/
theorem leaves_analyzeText (sink : Sink) (u : Universe) (title : String) (text : List Char)
    (m : Machine) : Leaves (analyzeText sink u title text) m (Analysis.ofText u title text).1 [] :=
  (Leaves.sayAll _ _ m).bind fun _ => .pure _ _

/-- The code of the program when an attempt ends. -/
def codeOf : Except Failure Nat → Nat
  | .ok code => exitCode code
  | .error _ => 1

/-- A program ends with the code of its attempt. -/
theorem leaves_conclude {work : Attempt Nat} {result : Except Failure Nat} (console : Console)
    (h : Ends work m result calls) :
    Leaves (Command.conclude console work) m (codeOf result) calls := by
  refine Leaves.bind_quiet h fun events => ?_
  cases result with
  | ok code => exact .pure _ _
  | error e => exact (Leaves.say _ _ _ _).bind fun _ => .pure 1 _

end ScriptDeps.Attempt
