import ScriptDeps.Proofs.Command.Starting
import ScriptDeps.Proofs.Command.Traces

/-!
# Details only add lines

The program is run twice, once with details and once without them. The console that it is given
decides what is shown of each message, and whether a download is noted; nothing else is decided on
it. So both runs do the same at each step, and what happens in the quiet one is what happens in the
loud one without the details. Main statement: `details_only_add_lines`.
-/

namespace ScriptDeps

open Machine CommandLine

/-! ## Events that are shown on request -/

namespace Event

/-- The event is a message about a detail or about a program that is started, or a note about a
download. -/
def isDetail : Event → Bool
  | message m => m.level == .verbose || m.level == .command
  | progress _ => true
  | _ => false

variable {e : Event}

/-- A console that shows details shows everything. -/
theorem shows_loud (useColors : Bool) (e : Event) :
    (Console.mk true useColors).shows e = true := by
  cases e with
  | message m => simp [Console.shows, Console.sink, Console.line?]
  | progress _ => rfl
  | output _ => rfl
  | complaint _ => rfl
  | program _ _ => rfl

/-- A console that shows no details shows everything else. -/
theorem shows_quiet (useColors : Bool) (e : Event) :
    (Console.mk false useColors).shows e = !e.isDetail := by
  cases e with
  | message m =>
    obtain ⟨level, text⟩ := m
    cases level <;> rfl
  | progress _ => rfl
  | output _ => rfl
  | complaint _ => rfl
  | program _ _ => rfl

/-- What a detail is to the two streams: nothing to the error stream, and one line of the output, or
nothing if it is a note about a download. -/
structure OnlyAddsLine (e : Event) (useColors : Bool) : Prop where
  /-- The error stream gets nothing. -/
  stderr : e.stderr useColors = []
  /-- The output gets the line of a message about a detail or a start, or nothing. -/
  stdout : (∃ m : Message, e = .message m ∧ (m.level = .verbose ∨ m.level = .command) ∧
      e.stdout useColors = Text.encode ((m.line useColors).toList ++ ['\n'])) ∨
    (∃ p, e = .progress p) ∧ e.stdout useColors = []

/-- Details only add lines to the output. -/
theorem onlyAddsLine_of_isDetail (h : e.isDetail = true) (useColors : Bool) :
    e.OnlyAddsLine useColors := by
  cases e with
  | message m =>
    obtain ⟨level, text⟩ := m
    obtain rfl | rfl : level = .verbose ∨ level = .command := by simpa [isDetail] using h
    · exact ⟨rfl, .inl ⟨_, rfl, .inl rfl, rfl⟩⟩
    · exact ⟨rfl, .inl ⟨_, rfl, .inr rfl, rfl⟩⟩
  | progress p => exact ⟨rfl, .inr ⟨⟨p, rfl⟩, rfl⟩⟩
  | output _ => simp [isDetail] at h
  | complaint _ => simp [isDetail] at h
  | program _ _ => simp [isDetail] at h

/-- The error stream is the same without details. -/
theorem flatMap_stderr_filter (events : List Event) (useColors : Bool) :
    (events.filter (!·.isDetail)).flatMap (·.stderr useColors) =
      events.flatMap (·.stderr useColors) := by
  induction events with
  | nil => rfl
  | cons e rest ih =>
    cases h : e.isDetail with
    | true => simp [h, ih, (onlyAddsLine_of_isDetail h useColors).stderr]
    | false => simp [h, ih]

end Event

/-! ## Machines without details -/

/-- The machine on which the same has happened without the details. -/
def Machine.muted (m : Machine) : Machine :=
  { m with events := m.events.filter (!·.isDetail) }

/-- A machine and the one without the details stay so whatever happens for the two consoles. -/
theorem trace_muted (useColors : Bool) :
    Trace ⟨true, useColors⟩ ⟨false, useColors⟩ fun m m' => m' = m.muted where
  differInEvents {m _} h :=
    ⟨{ m with events := [] }, m.events, m.events.filter (!·.isDetail),
      by simp [Machine.after], by simp [h, Machine.after, Machine.muted]⟩
  after events calls h := by
    subst h
    have hloud : events.filter (Console.mk true useColors).shows = events :=
      List.filter_eq_self.2 fun e _ => Event.shows_loud useColors e
    have hquiet : events.filter (Console.mk false useColors).shows =
        events.filter (!·.isDetail) :=
      List.filter_congr fun e _ => Event.shows_quiet useColors e
    rw [hloud, hquiet]
    simp only [Machine.muted, Machine.after, List.filter_append]

/-- Which files there are does not matter for the details. -/
theorem ignoresFiles_muted : IgnoresFiles fun m m' => m' = m.muted := by
  rintro m _ files rfl
  rfl

/-! ## Runs of the program -/

/-- What a command line asks for, with details or without. -/
def withDetails (verbose : Bool) (reading : Except Stop Invocation) : Except Stop Invocation :=
  reading.map fun i => { i with verbose }

/-- The program keeps a relation for the two consoles that its command line may ask for. -/
theorem within_execute {r : Machine → Machine → Prop} {verbose verbose' useColors : Bool}
    (hr : Trace ⟨verbose, useColors⟩ ⟨verbose', useColors⟩ r) (h : IgnoresFiles r)
    (reading : Except Stop Invocation) :
    Within r (execute useColors (withDetails verbose reading))
      (execute useColors (withDetails verbose' reading)) := by
  have hrecord (e : Event) (code : Nat) (he : ∀ c : Console, c.shows e = true) :
      Within r (do record e; return code) (do record e; return code) :=
    (within_record hr he).bind fun _ => .pure _
  cases reading with
  | ok i => exact Command.within_conclude hr (Command.keeps_perform hr i.task h)
  | error stop =>
    cases stop with
    | help topic => exact hrecord _ 0 fun _ => rfl
    | version => exact hrecord _ 0 fun _ => rfl
    | noScript => exact hrecord _ 1 fun _ => rfl
    | usage e => exact hrecord _ 2 fun _ => rfl

/-- What is seen of a run of the program. -/
structure Observation where
  /-- The code that it ends with. -/
  code : Nat
  /-- The files behind it. -/
  files : FileSystem
  /-- The programs that have been started. -/
  calls : List Call
  /-- What happens in it, in order. -/
  events : List Event

namespace Observation

/-- What a run writes to the output. -/
def output (useColors : Bool) (o : Observation) : List UInt8 :=
  o.events.flatMap (·.stdout useColors)

/-- What a run writes to the error stream. -/
def errors (useColors : Bool) (o : Observation) : List UInt8 :=
  o.events.flatMap (·.stderr useColors)

end Observation

/-- What is seen of a run on a machine: it begins when nothing has happened yet. -/
def observe (useColors : Bool) (reading : Except Stop Invocation) (m : Machine) : Observation :=
  let result := (execute useColors reading).run { m with events := [] }
  ⟨result.1, result.2.files, result.2.calls, result.2.events⟩

/-- What is seen of a run without details is what is seen of the run with them, less the details. -/
theorem observe_quiet (useColors : Bool) (reading : Except Stop Invocation) (m : Machine) :
    let loud := observe useColors (withDetails true reading) m
    observe useColors (withDetails false reading) m =
      { loud with events := loud.events.filter (!·.isDetail) } := by
  obtain ⟨hcode, hmachine⟩ := within_execute (trace_muted useColors) ignoresFiles_muted reading
    { m with events := [] } { m with events := [] } rfl
  simp only [observe]
  rw [hmachine, hcode]
  rfl

/-- A run without details ends with the same code and leaves the same files behind as one with
details, starts the same programs with the same arguments and writes the same to the error stream.
What happens in it is what happens in the other one, in the same order, without the details, each of
which is one line of the output, or a note about a download. -/
theorem details_only_add_lines (reading : Except Stop Invocation) (useColors : Bool)
    (m : Machine) :
    let loud := observe useColors (withDetails true reading) m
    let quiet := observe useColors (withDetails false reading) m
    quiet.code = loud.code ∧ quiet.files = loud.files ∧ quiet.calls = loud.calls ∧
      quiet.errors useColors = loud.errors useColors ∧
      quiet.events = loud.events.filter (!·.isDetail) ∧
      loud.output useColors = loud.events.flatMap (·.stdout useColors) ∧
      quiet.output useColors = (loud.events.filter (!·.isDetail)).flatMap (·.stdout useColors) ∧
      ∀ e ∈ loud.events, e.isDetail = true → e.OnlyAddsLine useColors := by
  intro loud quiet
  have hquiet : quiet = { loud with events := loud.events.filter (!·.isDetail) } :=
    observe_quiet useColors reading m
  rw [hquiet]
  exact ⟨rfl, rfl, rfl, Event.flatMap_stderr_filter _ _, rfl, rfl, rfl,
    fun _ _ h => Event.onlyAddsLine_of_isDetail h useColors⟩

/-- Of the start of a script only a run with details tells. -/
example :
    let reading : Except Stop Invocation := .ok ⟨false, .default, .run "s.py" []⟩
    let m := hostOf .new "# /// script\n# ///\n"
    (observe false (withDetails true reading) m).events.filter (·.isDetail) =
        [.message ⟨.command, "uv run s.py"⟩] ∧
      (observe false (withDetails false reading) m).events.filter (·.isDetail) = [] := by
  decide +kernel

end ScriptDeps
