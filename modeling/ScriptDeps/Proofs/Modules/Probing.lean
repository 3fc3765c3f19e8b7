import Mathlib.Data.Set.Card
import ScriptDeps.Proofs.Analysis.Widening
import ScriptDeps.Proofs.Command.Attempts
import ScriptDeps.Proofs.Text.Decoding
import ScriptDeps.Proofs.Text.Lines

/-!
# What an interpreter is found to know

An interpreter that is asked for its modules adds those that its answer names, one on a line, to the
modules that are known without asking. It is asked in vain if it cannot be started, does not end
well or answers with no text, and then nothing is known. Modules that are added later are added as
to a set. Main statement: `probe_exact`.
-/

namespace ScriptDeps

variable {interpreter name : String}

/-! ## Names in an answer -/

/-- A name is what blanks surround on a line of an answer. -/
def NamedIn (answer : List Char) (name : String) : Prop :=
  name ≠ "" ∧ ∃ line, Text.IsLine line answer ∧ Text.Trims line name.toList

/-- The names that are read from an answer are those on its lines. -/
theorem mem_namesInAnswer_iff {answer : List Char} :
    name ∈ namesInAnswer answer ↔ NamedIn answer name := by
  simp only [namesInAnswer, List.mem_map, List.mem_filter, NamedIn, ← Text.mem_bareLines_iff,
    ← Text.trim_eq_iff]
  constructor
  · rintro ⟨_, ⟨⟨line, hline, rfl⟩, hne⟩, rfl⟩
    refine ⟨fun hempty => ?_, line, hline, String.toList_ofList.symm⟩
    have hnil : Text.trim line = [] := by simpa using congrArg String.toList hempty
    simp [hnil] at hne
  · rintro ⟨hne, line, hline, htrim⟩
    refine ⟨name.toList, ⟨⟨line, hline, htrim⟩, ?_⟩, String.ofList_toList⟩
    simpa using hne

/-! ## Sets of modules -/

namespace Universe

/-- Modules that are added in several steps are added as to a set. -/
theorem contains_foldl_extend (u : Universe) (updates : List (List String)) :
    (updates.foldl extend u).contains name = true ↔
      u.contains name = true ∨ ∃ names ∈ updates, name ∈ names := by
  induction updates generalizing u with
  | nil => simp
  | cons names updates ih =>
    rw [List.foldl_cons, ih, contains_iff, contains_iff, mem_extend]
    simp only [List.exists_mem_cons_iff, or_assoc]

/-- A universe has as many modules as names are known. -/
theorem size_eq_ncard (u : Universe) :
    {name | u.contains name = true}.Finite ∧ u.size = {name | u.contains name = true}.ncard := by
  have hset : {name | u.contains name = true} = ↑u.names.toList.toFinset := by
    ext name
    simp
  have hnodup : u.names.toList.Nodup := u.names.ascending.imp fun h => String.ne_of_lt h
  refine ⟨hset ▸ u.names.toList.toFinset.finite_toSet, ?_⟩
  rw [hset, Set.ncard_coe_finset, List.toFinset_card_of_nodup hnodup]
  rfl

end Universe

/-! ## Asking -/

/-- What is known once an interpreter was asked, by what it did. -/
structure KnownFrom (interpreter : String) (outcome : Except SystemError Outcome)
    (result : Except ProbeError Universe) : Prop where
  /-- It tells something if it can be started, ends well and answers with a text. -/
  ok_iff : (∃ u, result = .ok u) ↔
    ∃ o answer, outcome = .ok o ∧ o.status = .exited 0 ∧ o.stdout = Text.encode answer
  /-- Then the known modules are those that need no asking and those that its answer names. -/
  contains_iff : ∀ u o answer, result = .ok u → outcome = .ok o → o.stdout = Text.encode answer →
    ∀ name, u.contains name = true ↔ name ∈ bundledModules ∨ NamedIn answer name
  /-- The first thing that can go wrong is that it cannot be started. -/
  spawn_iff : ∀ i e, result = .error (.spawn i e) ↔ i = interpreter ∧ outcome = .error e
  /-- The second is that it ends badly, whatever it answers. -/
  failed_iff : ∀ i status said, result = .error (.failed i status said) ↔ i = interpreter ∧
    ∃ o, outcome = .ok o ∧ o.status = status ∧ status ≠ .exited 0 ∧
      Text.Trims (Text.decodeLossy 0 o.stderr) said.toList
  /-- The last is that its answer is no text. -/
  notText_iff : (∃ e, result = .error (.notText e)) ↔
    ∃ o, outcome = .ok o ∧ o.status = .exited 0 ∧ ∀ answer, o.stdout ≠ Text.encode answer

namespace Universe

variable {o : Outcome}

/-- An interpreter that does not end well is an error with what it wrote to its error stream. -/
theorem ofOutcome_of_failed (h : o.status ≠ .exited 0) : ofOutcome interpreter o =
    .error (.failed interpreter o.status
      (String.ofList (Text.trim (Text.decodeLossy 0 o.stderr)))) := by
  have hstatus : o.status.isSuccess = false := by simpa [ExitStatus.isSuccess] using h
  rw [ofOutcome, hstatus]
  rfl

/-- The answer of an interpreter that ends well is read as a text, and names further modules. -/
theorem ofOutcome_of_success (h : o.status = .exited 0) : ofOutcome interpreter o =
    match Text.decode o.stdout with
    | .error e => .error (.notText e)
    | .ok answer => .ok (bundled.extend (namesInAnswer answer)) := by
  have hstatus : o.status.isSuccess = true := by simpa [ExitStatus.isSuccess] using h
  rw [ofOutcome, hstatus]
  rfl

end Universe

/-- An interpreter that cannot be started tells nothing. -/
theorem knownFrom_spawn (interpreter : String) (e : SystemError) :
    KnownFrom interpreter (.error e) (.error (.spawn interpreter e)) := by
  constructor
  case spawn_iff => simp [@eq_comm _ interpreter]
  all_goals simp

/-- An interpreter that was started tells something if it ends well and answers with a text. -/
theorem knownFrom_ofOutcome (interpreter : String) (o : Outcome) :
    KnownFrom interpreter (.ok o) (Universe.ofOutcome interpreter o) := by
  by_cases hstatus : o.status = .exited 0
  · rw [Universe.ofOutcome_of_success hstatus]
    cases hanswer : Text.decode o.stdout with
    | error e =>
      have hno : ∀ answer, o.stdout ≠ Text.encode answer := fun answer h => by
        rw [← Text.decode_eq_ok_iff, hanswer] at h
        cases h
      constructor <;> simp +contextual [hno, hstatus]
    | ok answer =>
      have hsame : ∀ answer', o.stdout = Text.encode answer' ↔ answer' = answer := fun answer' => by
        rw [← Text.decode_eq_ok_iff, hanswer, Except.ok.injEq, eq_comm]
      constructor
      case contains_iff =>
        rintro _ _ answer' ⟨⟩ ⟨⟩ hbytes name
        obtain rfl := (hsame answer').1 hbytes
        rw [Universe.contains_iff, Universe.mem_extend, Universe.bundled, NameSet.mem_ofList,
          mem_namesInAnswer_iff]
      all_goals simp +contextual [hsame, hstatus]
  · rw [Universe.ofOutcome_of_failed hstatus]
    constructor
    case failed_iff =>
      intro i status said
      have hsaid : said = String.ofList (Text.trim (Text.decodeLossy 0 o.stderr)) ↔
          Text.Trims (Text.decodeLossy 0 o.stderr) said.toList := by
        rw [← Text.trim_eq_iff, ← String.toList_inj, String.toList_ofList, eq_comm]
      simp only [Except.error.injEq, ProbeError.failed.injEq, Except.ok.injEq, exists_eq_left',
        ← hsaid]
      constructor
      · rintro ⟨rfl, rfl, rfl⟩
        exact ⟨rfl, rfl, hstatus, rfl⟩
      · rintro ⟨rfl, rfl, -, rfl⟩
        exact ⟨rfl, rfl, rfl⟩
    all_goals simp [hstatus]

/-- What is known after asking an interpreter is told by what the interpreter did. -/
theorem knownFrom_modulesOf (m : Machine) (interpreter : String) :
    KnownFrom interpreter (m.outcomeOf interpreter probeArguments)
      (m.modulesOf (some interpreter)) := by
  cases h : m.outcomeOf interpreter probeArguments with
  | error e => simpa only [Machine.modulesOf, h] using knownFrom_spawn interpreter e
  | ok o => simpa only [Machine.modulesOf, h] using knownFrom_ofOutcome interpreter o

/-- Every command takes the known modules from the interpreter that it is set to ask, and fails if
that one tells nothing. -/
theorem fst_run_knownModules {settings : Settings} (h : settings.interpreter = some interpreter)
    (m : Machine) : ((ExceptT.run (Command.knownModules settings)).run m).1 =
      (m.modulesOf (some interpreter)).mapError .probe := by
  rw [Command.knownModules, Attempt.run_attempt_eq, h, Machine.run_universeFor]
  cases m.modulesOf (some interpreter) <;> rfl

/-- What is known once an interpreter was asked is told by what it did; a command that is set to ask
it knows nothing else; and later additions are those to a set. -/
theorem probe_exact (m : Machine) (interpreter : String) :
    KnownFrom interpreter (m.outcomeOf interpreter probeArguments) ((probe interpreter).run m).1 ∧
      (∀ settings : Settings, settings.interpreter = some interpreter →
        ((ExceptT.run (Command.knownModules settings)).run m).1 =
          ((probe interpreter).run m).1.mapError .probe) ∧
      ∀ (u : Universe) (updates : List (List String)),
        let v := updates.foldl Universe.extend u
        (∀ name, v.contains name = true ↔
          u.contains name = true ∨ ∃ names ∈ updates, name ∈ names) ∧
        {name | v.contains name = true}.Finite ∧
        v.size = {name | v.contains name = true}.ncard := by
  rw [Universe.fst_run_probe]
  exact ⟨knownFrom_modulesOf m interpreter, fun _ h => fst_run_knownModules h m,
    fun u updates => ⟨fun _ => u.contains_foldl_extend updates, Universe.size_eq_ncard _⟩⟩

end ScriptDeps
