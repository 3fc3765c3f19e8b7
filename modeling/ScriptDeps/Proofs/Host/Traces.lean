import ScriptDeps.Analysis.File
import ScriptDeps.Proofs.Host.Steps

/-!
# Two runs of a step

A step is run twice, each time for a console of its own. Whatever the consoles show, both runs give
the same and leave machines behind that differ at most in what happened on them. There is one lemma
for each step, for any relation between machines that nothing else can break; what is put together
from steps then keeps the relation if its parts do. The relations of use are that one console shows
details and the other one does not, and that nothing but events and starts has been added.
-/

namespace ScriptDeps

/-- A console shows the messages that it takes, notes about downloads if it shows details, and
everything else that happens. -/
def Console.shows (c : Console) : Event → Bool
  | .message m => c.sink.takes m
  | .progress _ => c.verbose
  | _ => true

namespace Machine

/-- The machines differ at most in what happened on them. -/
def DifferInEvents (m m' : Machine) : Prop :=
  ∃ (before : Machine) (events events' : List Event),
    m = before.after events [] ∧ m' = before.after events' []

/-- A relation between the machines of two runs, each for a console. Related machines differ at most
in what happened, and stay related if more happens that each console shows what it shows of. -/
structure Trace (c c' : Console) (r : Machine → Machine → Prop) : Prop where
  /-- What happened is all that makes a difference. -/
  differInEvents : ∀ {m m'}, r m m' → DifferInEvents m m'
  /-- More events and more starts. -/
  after : ∀ {m m'} (events : List Event) (calls : List Call), r m m' →
    r (m.after (events.filter c.shows) calls) (m'.after (events.filter c'.shows) calls)

/-- A relation that does not look at the files, as long as both machines have the same. -/
def IgnoresFiles (r : Machine → Machine → Prop) : Prop :=
  ∀ {m m'} files, r m m' → r { m with files } { m' with files }

/-- The steps give the same on related machines, and leave related machines behind. -/
def Within {α : Type} (r : Machine → Machine → Prop) (x y : Step α) : Prop :=
  ∀ m m', r m m' → (x.run m).1 = (y.run m').1 ∧ r (x.run m).2 (y.run m').2

variable {c c' : Console} {r : Machine → Machine → Prop}

/-! ## Steps in a row -/

namespace Within

variable {α β : Type} {x y : Step α} {f g : α → Step β}

/-- A value is given on all machines. -/
theorem pure (a : α) : Within r (Pure.pure a) (Pure.pure a) := fun _ _ h => ⟨rfl, h⟩

/-- Steps in a row keep a relation that each of them keeps. -/
theorem bind (hx : Within r x y) (hf : ∀ a, Within r (f a) (g a)) :
    Within r (x >>= f) (y >>= g) := by
  intro m m' h
  obtain ⟨hvalue, hbehind⟩ := hx m m' h
  rw [run_bind, run_bind, hvalue]
  exact hf _ _ _ hbehind

/-- A step that reads the machine and starts programs gives the same wherever the same files and
programs are. -/
theorem of_run (hr : Trace c c' r) {value : Machine → α} {calls : Machine → List Call}
    (hrun : ∀ m, x.run m = (value m, m.after [] (calls m)))
    (hvalue : ∀ m events, value (m.after events []) = value m)
    (hcalls : ∀ m events, calls (m.after events []) = calls m) : Within r x x := by
  intro m m' h
  have hafter := hr.after [] (calls m) h
  obtain ⟨before, events, events', rfl, rfl⟩ := hr.differInEvents h
  rw [hcalls] at hafter
  rw [hrun, hrun, hvalue, hvalue, hcalls, hcalls]
  exact ⟨rfl, hafter⟩

/-- A step that reads the machine. -/
theorem of_reads (hr : Trace c c' r) {value : Machine → α} (hrun : ∀ m, x.run m = (value m, m))
    (hvalue : ∀ m events, value (m.after events []) = value m) : Within r x x :=
  of_run hr (fun m => (hrun m).trans (by rw [after_nil])) hvalue fun _ _ => rfl

/-- Steps for two consoles, each of which shows what it shows of some events. -/
theorem of_shows (hr : Trace c c' r) {x y : Step Unit} (events : List Event)
    (hx : ∀ m, x.run m = ((), m.after (events.filter c.shows) []))
    (hy : ∀ m, y.run m = ((), m.after (events.filter c'.shows) [])) : Within r x y := by
  intro m m' h
  rw [hx, hy]
  exact ⟨rfl, hr.after events [] h⟩

end Within

/-! ## Steps that something happens in -/

/-- What a console takes of some messages is what it shows of them. -/
theorem events_sink (c : Console) (messages : List Message) :
    c.sink.events messages = (messages.map Event.message).filter c.shows := by
  rw [List.filter_map]
  rfl

/-- Each console takes what it takes of the same messages. -/
theorem within_sayAll (hr : Trace c c' r) (messages : List Message) :
    Within r (sayAll c messages) (sayAll c' messages) :=
  .of_shows hr _ (fun m => (run_sayAll _ _ m).trans (by rw [events_sink]))
    fun m => (run_sayAll _ _ m).trans (by rw [events_sink])

/-- Each console takes a message or lets it pass. -/
theorem within_say (hr : Trace c c' r) (level : Level) (text : String) :
    Within r (say c level text) (say c' level text) := within_sayAll hr _

/-- A note about a download is shown by a console that shows details. -/
theorem run_note (c : Console) (p : Progress) (m : Machine) :
    (note c.verbose p).run m = ((), m.after ([Event.progress p].filter c.shows) []) := by
  obtain ⟨verbose, useColors⟩ := c
  cases verbose with
  | true => exact run_record _ m
  | false => exact (run_pure () m).trans (congrArg (Prod.mk ()) after_nil.symm)

/-- A note about a download is made for a console that shows details, and not for another one. -/
theorem within_note (hr : Trace c c' r) (p : Progress) :
    Within r (note c.verbose p) (note c'.verbose p) :=
  .of_shows hr _ (run_note c p) (run_note c' p)

/-- What every console shows is recorded for both. -/
theorem within_record (hr : Trace c c' r) {e : Event} (he : ∀ c : Console, c.shows e = true) :
    Within r (record e) (record e) := by
  have hshown (c : Console) : [e].filter c.shows = [e] := List.filter_cons_of_pos (he c)
  exact .of_shows hr [e] (fun m => by rw [run_record, hshown]) fun m => by rw [run_record, hshown]

/-! ## Steps that change files -/

/-- A text is written if the file system lets it be. -/
theorem run_writeText (path : String) (text : List Char) (m : Machine) :
    (writeText path text).run m =
      match m.files.write m.directory path (Text.encode text) with
      | .error e => (.error e, m)
      | .ok files => (.ok (), { m with files }) := by
  cases h : m.files.write m.directory path (Text.encode text) <;>
    simp only [writeText, run_bind, run_get, run_set, run_pure, h]

/-- The same text is written, or refused for the same reason. -/
theorem within_writeText (hr : Trace c c' r) (hfiles : IgnoresFiles r) (path : String)
    (text : List Char) : Within r (writeText path text) (writeText path text) := by
  intro m m' h
  obtain ⟨before, events, events', rfl, rfl⟩ := hr.differInEvents h
  simp only [run_writeText, after_files, after_directory]
  cases before.files.write before.directory path (Text.encode text) with
  | error e => exact ⟨rfl, h⟩
  | ok files => exact ⟨rfl, hfiles files h⟩

/-- What stands at a path is taken away, if anything does. -/
theorem run_remove (path : String) (m : Machine) :
    (remove path).run m = ((),
      match m.files.locate m.directory path with
      | .ok (place, _) => { m with files := m.files.erase place }
      | .error _ => m) := rfl

/-- The same file is taken away. -/
theorem within_remove (hr : Trace c c' r) (hfiles : IgnoresFiles r) (path : String) :
    Within r (remove path) (remove path) := by
  intro m m' h
  obtain ⟨before, events, events', rfl, rfl⟩ := hr.differInEvents h
  refine ⟨rfl, ?_⟩
  simp only [run_remove, after_files, after_directory]
  cases before.files.locate before.directory path with
  | error e => exact h
  | ok place => exact hfiles (before.files.erase place.1) h

/-- A copy is written where a file can be made. -/
theorem run_writeCopy (body : List UInt8) (m : Machine) :
    (writeCopy body).run m =
      match m.files.target m.directory m.copyPath with
      | .error e => (.error (.system e), m)
      | .ok place => (.ok m.copyPath, { m with files := m.files.put place body }) := by
  cases h : m.files.target m.directory m.copyPath <;>
    simp only [writeCopy, run_bind, run_get, run_set, run_pure, h]

/-- The same copy is written, or refused for the same reason. -/
theorem within_writeCopy (hr : Trace c c' r) (hfiles : IgnoresFiles r) (body : List UInt8) :
    Within r (writeCopy body) (writeCopy body) := by
  intro m m' h
  obtain ⟨before, events, events', rfl, rfl⟩ := hr.differInEvents h
  simp only [run_writeCopy, after_files, after_directory, after_copyPath]
  cases before.files.target before.directory before.copyPath with
  | error e => exact ⟨rfl, h⟩
  | ok place => exact ⟨rfl, hfiles (before.files.put place body) h⟩

/-! ## Steps that read and start programs -/

/-- The same text is read. -/
theorem within_readText (hr : Trace c c' r) (path : String) :
    Within r (readText path) (readText path) :=
  .of_reads hr (run_readText path) fun _ _ => textAt_after path

/-- The interpreter is asked by the same start and names the same modules. -/
theorem within_universeFor (hr : Trace c c' r) (interpreter : Option String) :
    Within r (universeFor interpreter) (universeFor interpreter) :=
  .of_run hr (run_universeFor interpreter) (fun _ _ => modulesOf_after interpreter)
    fun _ _ => probesOf_after interpreter

/-- A script exists on both machines or on neither. -/
theorem within_checkExists (hr : Trace c c' r) (path : String) :
    Within r (checkExists path) (checkExists path) :=
  .of_reads hr (run_checkExists path) fun _ _ => rfl

/-- An unusual ending is noticed in both runs, and told to each console. -/
theorem within_checkEnding (hr : Trace c c' r) (path : String) :
    Within r (checkEnding c path) (checkEnding c' path) := by
  rw [checkEnding, checkEnding]
  split
  · exact .pure _
  · exact (within_say hr _ _).bind fun _ => .pure _

/-- A script passes in both runs or in neither. -/
theorem within_checkScript (hr : Trace c c' r) (path : String) :
    Within r (checkScript c path) (checkScript c' path) := by
  refine (within_checkExists hr path).bind fun result => ?_
  cases result with
  | ok _ => exact (within_checkEnding hr path).bind fun _ => .pure _
  | error e => exact .pure _

/-- The runner is asked by the same start and answers the same. -/
theorem within_checkRunner (hr : Trace c c' r) (runner : String) :
    Within r (checkRunner runner) (checkRunner runner) :=
  .of_run hr (run_checkRunner runner) (fun _ _ => by rw [answers_after])
    fun _ _ => startsOf_after runner _

/-- The same program is started with the same arguments and does the same. -/
theorem within_start (hr : Trace c c' r) (name : String) (arguments : List String) :
    Within r (start name arguments) (start name arguments) :=
  .of_run hr (run_start name arguments) (fun _ _ => outcomeOf_after name arguments)
    fun _ _ => startsOf_after name arguments

/-- A script is run by the same start of the runner, with the same packages and arguments. Each
console is told of the start. -/
theorem within_run (hr : Trace c c' r) (runner script : String) (dependencies : DependencyList)
    (arguments : List String) :
    Within r (Machine.run c runner script dependencies arguments)
      (Machine.run c' runner script dependencies arguments) := by
  refine (within_say hr _ _).bind fun _ => (within_start hr _ _).bind fun outcome => ?_
  rcases outcome with e | outcome
  · cases e <;> exact .pure _
  · exact (within_record hr fun _ => rfl).bind fun _ => .pure _

/-- The same is found in a text. -/
theorem within_analyzeText (hr : Trace c c' r) (u : Universe) (title : String)
    (text : List Char) : Within r (analyzeText c u title text) (analyzeText c' u title text) :=
  (within_sayAll hr _).bind fun _ => .pure _

/-- The same is found in the file at a path. -/
theorem within_analyzeFile (hr : Trace c c' r) (u : Universe) (path : String) :
    Within r (analyzeFile c u path) (analyzeFile c' u path) := by
  refine (within_readText hr path).bind fun result => ?_
  cases result with
  | ok text => exact within_analyzeText hr u path text
  | error e => exact (within_say hr _ _).bind fun _ => .pure _

/-- The report on a file is the same, its time included. -/
theorem within_reportOnFile (hr : Trace c c' r) (u : Universe) (version path : String) :
    Within r (reportOnFile c u version path) (reportOnFile c' u version path) :=
  (within_analyzeFile hr u path).bind fun _ => .of_reads hr (fun _ => rfl) fun _ _ => rfl

/-! ## Scripts that an address names -/

/-- A request changes nothing on the machine. -/
theorem run_request (address : String) (m : Machine) :
    (request address).run m = (((request address).run m).1, m) := by
  rw [request]
  split
  · rfl
  next a _ =>
    by_cases hscheme : a.withoutUser.canFetch = true
    · simp only [hscheme, if_true, run_bind, run_get]
      split
      · rfl
      · split <;> rfl
    · simp only [hscheme]
      rfl

/-- An answer does not depend on what happened before. -/
theorem fst_run_request_after {m : Machine} {events : List Event} {calls : List Call}
    (address : String) :
    ((request address).run (m.after events calls)).1 = ((request address).run m).1 := by
  unfold request
  split
  · rfl
  next a _ =>
    dsimp only
    split
    · simp only [run_bind, run_get, show (m.after events calls).network = m.network from rfl]
      split
      · rfl
      · split <;> rfl
    · rfl

/-- The same is asked of other computers, and they answer the same. -/
theorem within_request (hr : Trace c c' r) (address : String) :
    Within r (request address) (request address) :=
  .of_reads hr (run_request address) fun _ _ => fst_run_request_after address

/-- The same copy is fetched, whether or not the download is noted. -/
theorem within_fetch (hr : Trace c c' r) (hfiles : IgnoresFiles r) (address : String) :
    Within r (fetch address c.verbose) (fetch address c'.verbose) := by
  refine (within_note hr _).bind fun _ => (within_request hr address).bind fun result => ?_
  rcases result with e | body
  · cases e with
    | status => exact (within_note hr _).bind fun _ => .pure _
    | request | system => exact .pure _
  · refine (within_writeCopy hr hfiles body).bind fun written => ?_
    cases written with
    | error e => exact .pure _
    | ok path => exact (within_note hr _).bind fun _ => .pure _

/-- A script is found at the same place. The relation has to bear a copy only if the script is
remote. -/
theorem within_resolve (hr : Trace c c' r) {script : String}
    (h : isAddress script = true → IgnoresFiles r) :
    Within r (resolve c script c.verbose) (resolve c' script c'.verbose) := by
  cases hscript : isAddress script with
  | true =>
    simp only [resolve, hscript, if_true]
    refine (within_say hr _ _).bind fun _ => ?_
    refine (within_fetch hr (h hscript) script).bind fun result => ?_
    cases result with
    | error e => exact .pure _
    | ok path => exact (within_say hr _ _).bind fun _ => .pure _
  | false =>
    simp only [resolve, hscript, Bool.false_eq_true, if_false]
    exact .pure _

/-- A script is remote if an address names it. -/
theorem isRemote_resolve {sink : Sink} {script : String} {showProgress : Bool} {m : Machine}
    {source : Source} (h : ((resolve sink script showProgress).run m).1 = .ok source) :
    source.isRemote = isAddress script := by
  cases hscript : isAddress script with
  | true =>
    simp only [resolve, hscript, if_true, run_bind] at h
    split at h
    · exact absurd h nofun
    · exact Except.ok.inj h ▸ rfl
  | false =>
    simp only [resolve, hscript, Bool.false_eq_true, if_false, run_pure] at h
    exact Except.ok.inj h ▸ rfl

/-- A script is let go in the same way. -/
theorem within_release (hr : Trace c c' r) {source : Source}
    (h : source.isRemote = true → IgnoresFiles r) :
    Within r (release source) (release source) := by
  rw [release]
  split
  next hremote => exact within_remove hr (h hremote) source.path
  next => exact .pure _

end ScriptDeps.Machine
